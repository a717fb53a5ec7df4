import Sagas.Mapping
import Sagas.Proofs.Paths

/-! When one path lies below another, said with segments and with bytes, and the sizes of paths that
tell how far down they go. -/
namespace Sagas

/-! ## Segments -/

/-- The segments of a path with dots between them are the path. -/
theorem intercalate_segments (path : String) : ".".intercalate (segments path) = path := by
  apply String.toList_injective
  rw [segments, String.toList_intercalate, List.map_map, String.toList_comp_ofList, List.map_id]
  exact List.intercalate_splitOn '.'

theorem segments_append (first rest : String) :
    segments (first ++ "." ++ rest) = segments first ++ segments rest := by
  have hchars : (first ++ "." ++ rest).toList = first.toList ++ '.' :: rest.toList := by simp
  rw [segments, hchars, List.splitOn_append_cons_self, List.map_append]
  rfl

theorem flatten_splitOn (sep : Char) (cs : List Char) :
    (cs.splitOn sep).flatten = cs.filter (· ≠ sep) := by
  induction cs with
  | nil => rfl
  | cons c rest ih =>
    rw [List.splitOn_cons_eq_if_modifyHead]
    by_cases hc : c = sep
    · simpa [hc] using ih
    · obtain ⟨first, others, hsplit⟩ := List.exists_cons_of_ne_nil (List.splitOn_ne_nil sep rest)
      rw [hsplit] at ih ⊢
      simpa [hc] using ih

/-- The segments of a path one after the other are the path without its dots. -/
theorem join_segments (path : String) :
    String.join (segments path) = String.ofList (path.toList.filter (· ≠ '.')) := by
  apply String.toList_injective
  rw [segments, String.toList_join, List.flatMap_map, String.toList_ofList, ← flatten_splitOn]
  simp [List.flatMap]

theorem leaf_eq_getLast (path : String) :
    leaf path = (segments path).getLast (segments_ne_nil path) := by
  rw [leaf, List.getLastD_eq_getLast?, List.getLast?_eq_some_getLast (segments_ne_nil path)]
  rfl

namespace Mapping

variable {parent path : String}

theorem isParent_iff : isParent parent path = true ↔ ∃ rest, path = parent ++ "." ++ rest := by
  rw [isParent, List.isPrefixOf_iff_prefix]
  constructor
  · rintro ⟨rest, h⟩
    refine ⟨String.ofList rest, String.toList_injective ?_⟩
    simpa using h.symm
  · rintro ⟨rest, rfl⟩
    exact ⟨rest.toList, by simp⟩

/-- A path lies below another exactly if its segments go on after those of the other. -/
theorem isParent_iff_segments :
    isParent parent path = true ↔ ∃ rest, rest ≠ [] ∧ segments path = segments parent ++ rest := by
  rw [isParent_iff]
  constructor
  · rintro ⟨rest, rfl⟩
    exact ⟨segments rest, segments_ne_nil rest, segments_append parent rest⟩
  · rintro ⟨rest, hrest, h⟩
    refine ⟨".".intercalate rest, ?_⟩
    rw [← intercalate_segments path, h,
      String.intercalate_append_of_ne_nil (segments_ne_nil parent) hrest, intercalate_segments]

/-! ## Bytes -/

/-- Whether a path lies below another, by their bytes: it is longer, begins with the bytes of the
other and goes on with the byte of a dot. -/
def isParentByBytes (parent path : String) : Bool :=
  if h : parent.utf8ByteSize < path.utf8ByteSize then
    (path.toByteArray.extract 0 parent.utf8ByteSize).data = parent.toByteArray.data &&
      path.getUTF8Byte ⟨parent.utf8ByteSize⟩ h = '.'.toUInt8
  else false

/-- The text from a byte on; none if that byte is past the end or inside a character. -/
def textFrom? (text : String) (byte : Nat) : Option String :=
  if h : String.Pos.Raw.IsValid text ⟨byte⟩ then some (text.sliceFrom (text.pos ⟨byte⟩ h)).copy
  else none

theorem textFrom?_append (first rest : String) :
    textFrom? (first ++ rest) first.utf8ByteSize = some rest := by
  have hvalid : String.Pos.Raw.IsValid (first ++ rest) ⟨first.utf8ByteSize⟩ :=
    String.Pos.Raw.isValid_iff_exists_append.mpr ⟨first, rest, rfl, rfl⟩
  have hsplits : ((first ++ rest).pos _ hvalid).Splits first rest := ⟨rfl, rfl⟩
  rw [textFrom?, dif_pos hvalid, (String.Pos.splits _).eq_right hsplits]

theorem utf8ByteSize_dot : ".".utf8ByteSize = 1 :=
  rfl

/-- A text whose bytes begin with those of another begins with its characters. -/
theorem exists_append_of_bytes {first text : String} (rest : ByteArray)
    (h : text.toByteArray = first.toByteArray ++ rest) : ∃ tail, text = first ++ tail := by
  rw [← first.utf8Encode_toList, ← text.utf8Encode_toList] at h
  obtain ⟨tail, htail⟩ := List.isPrefix_of_utf8Encode_append_eq_utf8Encode rest h.symm
  refine ⟨String.ofList tail, String.toList_injective ?_⟩
  rw [← htail, String.toList_append, String.toList_ofList]

theorem exists_append_of_isParentByBytes (h : isParentByBytes parent path = true) :
    ∃ rest, path = parent ++ "." ++ rest := by
  rw [isParentByBytes] at h
  split at h
  · rename_i hlt
    simp only [Bool.and_eq_true, decide_eq_true_eq, ← ByteArray.ext_iff] at h
    obtain ⟨hbegin, hdot⟩ := h
    have hsize : parent.utf8ByteSize + 1 ≤ path.toByteArray.size := by
      rw [String.size_toByteArray]
      exact hlt
    have hone : path.toByteArray.extract parent.utf8ByteSize (parent.utf8ByteSize + 1) =
        ".".toByteArray := by
      rw [ByteArray.extract_add_one hsize]
      exact congrArg (fun byte => [byte].toByteArray) hdot
    -- The bytes of the path are those of the parent, the dot and the rest.
    refine exists_append_of_bytes
      (path.toByteArray.extract (parent.utf8ByteSize + 1) path.toByteArray.size) ?_
    rw [String.toByteArray_append, ← hbegin, ← hone,
      ← ByteArray.extract_eq_extract_append_extract _ (Nat.zero_le _) (Nat.le_succ _),
      ← ByteArray.extract_eq_extract_append_extract _ (Nat.zero_le _) hsize,
      ByteArray.extract_zero_size]
  · cases h

theorem isParentByBytes_append (parent rest : String) :
    isParentByBytes parent (parent ++ "." ++ rest) = true := by
  have hlt : parent.utf8ByteSize < (parent ++ "." ++ rest).utf8ByteSize := by
    simp only [String.utf8ByteSize_append, utf8ByteSize_dot]
    omega
  rw [isParentByBytes, dif_pos hlt, Bool.and_eq_true, decide_eq_true_eq, decide_eq_true_eq]
  constructor
  · rw [String.append_assoc, String.toByteArray_append]
    exact congrArg ByteArray.data (ByteArray.extract_append_eq_left rfl)
  · simp only [String.getUTF8Byte, String.toByteArray_append]
    rw [ByteArray.getElem_append_left (by simp [utf8ByteSize_dot]),
      ByteArray.getElem_append_right (by simp)]
    simp only [String.size_toByteArray, Nat.sub_self]
    rfl

/-- The comparison of bytes finds the paths that go on after another with a dot, whatever
characters they have. -/
theorem isParentByBytes_eq (parent path : String) :
    isParentByBytes parent path = isParent parent path := by
  rw [Bool.eq_iff_iff, isParent_iff]
  constructor
  · exact exists_append_of_isParentByBytes
  · rintro ⟨rest, rfl⟩
    exact isParentByBytes_append parent rest

/-! ## Sizes -/

/-- A size of paths that grows on the way down. -/
def GrowsDown (size : String → Nat) : Prop :=
  ∀ parent path, isParent parent path = true → size parent < size path

theorem growsDown_length : GrowsDown String.length := by
  intro parent path h
  obtain ⟨rest, rfl⟩ := isParent_iff.mp h
  have hdot : ".".length = 1 := rfl
  simp only [String.length_append, hdot]
  omega

theorem growsDown_utf8ByteSize : GrowsDown String.utf8ByteSize := by
  intro parent path h
  obtain ⟨rest, rfl⟩ := isParent_iff.mp h
  simp only [String.utf8ByteSize_append, utf8ByteSize_dot]
  omega

theorem growsDown_segments : GrowsDown fun path => (segments path).length := by
  intro parent path h
  obtain ⟨rest, hrest, hsegments⟩ := isParent_iff_segments.mp h
  have hlength := List.length_pos_iff.mpr hrest
  simp only [hsegments, List.length_append]
  omega

variable {a b : String}

/-- Of two paths above a third, one is above the other or they are the same. -/
theorem isParent_trichotomy (ha : isParent a path = true) (hb : isParent b path = true) :
    a = b ∨ isParent a b = true ∨ isParent b a = true := by
  simp only [isParent, List.isPrefixOf_iff_prefix] at ha hb ⊢
  rcases List.prefix_or_prefix_of_prefix ha hb with h | h
  · rcases List.prefix_concat_iff.mp h with heq | hbelow
    · exact Or.inl (String.toList_injective (List.append_cancel_right heq))
    · exact Or.inr (Or.inl hbelow)
  · rcases List.prefix_concat_iff.mp h with heq | hbelow
    · exact Or.inl (String.toList_injective (List.append_cancel_right heq.symm))
    · exact Or.inr (Or.inr hbelow)

/-- On the paths above one path all sizes that grow on the way down agree. -/
theorem GrowsDown.le_iff {size size' : String → Nat} (h : GrowsDown size) (h' : GrowsDown size')
    (ha : isParent a path = true) (hb : isParent b path = true) :
    size a ≤ size b ↔ size' a ≤ size' b := by
  rcases isParent_trichotomy ha hb with rfl | hab | hba
  · exact iff_of_true (Nat.le_refl _) (Nat.le_refl _)
  · exact iff_of_true (Nat.le_of_lt (h a b hab)) (Nat.le_of_lt (h' a b hab))
  · exact iff_of_false (Nat.not_le_of_lt (h b a hba)) (Nat.not_le_of_lt (h' b a hba))

theorem GrowsDown.eq_of_eq {size : String → Nat} (h : GrowsDown size)
    (ha : isParent a path = true) (hb : isParent b path = true) (hsize : size a = size b) :
    a = b := by
  rcases isParent_trichotomy ha hb with heq | hab | hba
  · exact heq
  · exact absurd hsize (Nat.ne_of_lt (h a b hab))
  · exact absurd hsize.symm (Nat.ne_of_lt (h b a hba))

end Mapping

end Sagas
