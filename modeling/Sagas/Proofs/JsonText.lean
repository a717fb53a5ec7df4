import Sagas.Proofs.JsonNumbers
import Sagas.Proofs.JsonStrings

/-! What the compact text of a JSON value is read as: the value itself, unless it nests too deep or
holds a number that is read as another one. -/
namespace Sagas

/-! ## Members -/

namespace Members

theorem put_of_not_mem {name : String} {members : Members} (h : name ∉ members.names)
    (value : Json) : put name value members = members ++ [(name, value)] := by
  induction members with
  | nil => rfl
  | cons head rest ih =>
    obtain ⟨key, old⟩ := head
    have hne : key ≠ name := fun he => h (he ▸ List.mem_cons_self)
    have hrest : name ∉ names rest := fun hm => h (List.mem_cons_of_mem _ hm)
    rw [put, if_neg hne, ih hrest, List.cons_append]

end Members

namespace Json

open Text

/-! ## Values -/

/-- A value that can be written: its integers are of 64 bits, and its objects have no name twice. -/
def IsProper : Json → Prop
  | .number n => n.IsProper
  | .array items => areProper items
  | .object members => (Members.names members).Nodup ∧ memberValuesProper members
  | _ => True
where
  areProper : List Json → Prop
    | [] => True
    | item :: rest => IsProper item ∧ areProper rest
  memberValuesProper : List (String × Json) → Prop
    | [] => True
    | (_, value) :: rest => IsProper value ∧ memberValuesProper rest

/-- How many arrays and objects stand inside each other. -/
def nesting : Json → Nat
  | .array items => 1 + deepest items
  | .object members => 1 + deepestMember members
  | _ => 0
where
  deepest : List Json → Nat
    | [] => 0
    | item :: rest => max (nesting item) (deepest rest)
  deepestMember : List (String × Json) → Nat
    | [] => 0
    | (_, value) :: rest => max (nesting value) (deepestMember rest)

/-- The floats of a value. -/
def floats : Json → List Binary64
  | .number (.float x) => [x]
  | .array items => floatsOf items
  | .object members => memberFloats members
  | _ => []
where
  floatsOf : List Json → List Binary64
    | [] => []
    | item :: rest => floats item ++ floatsOf rest
  memberFloats : List (String × Json) → List Binary64
    | [] => []
    | (_, value) :: rest => floats value ++ memberFloats rest

/-- What a value comes back as when its text is read at some depth. -/
def reread (depth : Nat) : Json → Option Json
  | .number n => n.reread.map .number
  | .array items => if depth ≤ 1 then none else (rereadItems (depth - 1) items).map .array
  | .object members => if depth ≤ 1 then none else (rereadMembers (depth - 1) members).map .object
  | other => some other
where
  rereadItems (depth : Nat) : List Json → Option (List Json)
    | [] => some []
    | item :: rest =>
      (reread depth item).bind fun item => (rereadItems depth rest).map (item :: ·)
  rereadMembers (depth : Nat) : List (String × Json) → Option (List (String × Json))
    | [] => some []
    | (name, value) :: rest =>
      (reread depth value).bind fun value => (rereadMembers depth rest).map ((name, value) :: ·)

/-! ## Texts -/

theorem toList_quote (s : String) :
    (quote s).toList = '"' :: (s.toList.flatMap escapeChar ++ ['"']) := by
  rw [quote, String.toList_ofList, List.cons_append]

/-- The characters of the items of an array, with the commas between them. -/
def itemsText (items : List Json) : List Char :=
  (",".intercalate (text.itemTexts items)).toList

/-- The characters of the members of an object, with the commas between them. -/
def membersText (members : Members) : List Char :=
  (",".intercalate (text.memberTexts members)).toList

theorem itemsText_singleton (item : Json) : itemsText [item] = item.text.toList := by
  rw [itemsText, text.itemTexts, text.itemTexts, String.intercalate_singleton]

theorem itemsText_cons (item next : Json) (rest : List Json) :
    itemsText (item :: next :: rest) = item.text.toList ++ ',' :: itemsText (next :: rest) := by
  simp only [itemsText, text.itemTexts, String.intercalate_cons_cons, String.toList_append,
    List.append_assoc]
  rfl

theorem membersText_singleton (name : String) (value : Json) :
    membersText [(name, value)] = (quote name).toList ++ ':' :: value.text.toList := by
  simp only [membersText, text.memberTexts, String.intercalate_singleton, String.toList_append,
    List.append_assoc]
  rfl

theorem membersText_cons (name : String) (value : Json) (next : String × Json) (rest : Members) :
    membersText ((name, value) :: next :: rest) =
      (quote name).toList ++ ':' :: (value.text.toList ++ ',' :: membersText (next :: rest)) := by
  obtain ⟨nextName, nextValue⟩ := next
  simp only [membersText, text.memberTexts, String.intercalate_cons_cons, String.toList_append,
    List.append_assoc]
  rfl

theorem toList_array (items : List Json) :
    (Json.array items).text.toList = '[' :: (itemsText items ++ [']']) := by
  simp only [text, String.toList_append, itemsText, List.append_assoc]
  rfl

theorem toList_object (members : Members) :
    (Json.object members).text.toList = '\x7b' :: (membersText members ++ ['\x7d']) := by
  simp only [text, String.toList_append, membersText, List.append_assoc]
  rfl

/-- A character at which a value can start. -/
def Starts (c : Char) : Prop :=
  isDigit c = true ∨ c ∈ ['-', '"', '[', '\x7b', 't', 'f', 'n']

instance (c : Char) : Decidable (Starts c) :=
  inferInstanceAs (Decidable (_ ∨ _))

theorem text_eq_cons (j : Json) : ∃ c cs, j.text.toList = c :: cs ∧ Starts c := by
  cases j with
  | null => exact ⟨'n', _, rfl, .inr (by decide)⟩
  | bool b => cases b with
    | true => exact ⟨'t', _, rfl, .inr (by decide)⟩
    | false => exact ⟨'f', _, rfl, .inr (by decide)⟩
  | number n =>
    obtain ⟨c, cs, h, hc⟩ := n.text_eq_cons
    rw [text]
    refine ⟨c, cs, h, hc.symm.imp_right fun hc => ?_⟩
    rw [hc]
    exact List.mem_cons_self
  | string s =>
    rw [text, toList_quote]
    exact ⟨_, _, rfl, .inr (by decide)⟩
  | array items => exact ⟨_, _, toList_array items, .inr (by decide)⟩
  | object members => exact ⟨_, _, toList_object members, .inr (by decide)⟩

theorem Starts.ne {c d : Char} (h : Starts c) (hd : ¬ Starts d) : c ≠ d :=
  fun he => hd (he ▸ h)

theorem itemsText_eq_cons (item : Json) (items : List Json) :
    ∃ c cs, itemsText (item :: items) = c :: cs ∧ Starts c := by
  obtain ⟨c, cs, h, hc⟩ := item.text_eq_cons
  cases items with
  | nil => exact ⟨c, cs, by rw [itemsText_singleton, h], hc⟩
  | cons next items => exact ⟨c, _, by rw [itemsText_cons, h, List.cons_append], hc⟩

theorem membersText_eq_cons (member : String × Json) (members : Members) :
    ∃ cs, membersText (member :: members) = '"' :: cs := by
  obtain ⟨name, value⟩ := member
  cases members with
  | nil => exact ⟨_, by rw [membersText_singleton, toList_quote, List.cons_append]⟩
  | cons next members => exact ⟨_, by rw [membersText_cons, toList_quote, List.cons_append]⟩

theorem skipSpace_cons {c : Char} (h : c ≠ ' ' ∧ c ≠ '\n' ∧ c ≠ '\t' ∧ c ≠ '\r') (cs : List Char) :
    skipSpace (c :: cs) = c :: cs :=
  List.dropWhile_cons_of_neg (by simp [h])

theorem Starts.skipSpace {c : Char} (h : Starts c) (cs : List Char) :
    skipSpace (c :: cs) = c :: cs :=
  skipSpace_cons ⟨h.ne (by decide), h.ne (by decide), h.ne (by decide), h.ne (by decide)⟩ cs

/-! ## Reading -/

section
variable (fuel depth : Nat) (cs : List Char)

theorem readValue_quote : readValue (fuel + 1) depth ('"' :: cs) =
    (readString cs).map fun (s, rest) => (.string s, rest) := by
  simp only [readValue, skipSpace_cons (c := '"') (by decide)]
  cases readString cs <;> rfl

theorem readValue_bracket {c : Char} (hc : Starts c) :
    readValue (fuel + 1) depth ('[' :: c :: cs) = if depth ≤ 1 then none else
      (readItems fuel (depth - 1) (c :: cs)).map fun (items, rest) => (.array items, rest) := by
  simp only [readValue, skipSpace_cons (c := '[') (by decide), hc.skipSpace]
  split
  · rfl
  · split
    case h_1 heq => exact absurd (List.cons.inj heq).1 (hc.ne (by decide))
    case h_2 => cases readItems fuel (depth - 1) (c :: cs) <;> rfl

theorem readValue_brace :
    readValue (fuel + 1) depth ('\x7b' :: '"' :: cs) = if depth ≤ 1 then none else
      (readMembers fuel (depth - 1) [] ('"' :: cs)).map fun (members, rest) =>
        (.object members, rest) := by
  simp only [readValue, skipSpace_cons (c := '\x7b') (by decide),
    skipSpace_cons (c := '"') (by decide)]
  split
  · rfl
  · split
    case h_1 heq => exact absurd (List.cons.inj heq).1 (by decide)
    case h_2 => cases readMembers fuel (depth - 1) [] ('"' :: cs) <;> rfl

theorem readValue_emptyArray : readValue (fuel + 1) depth ('[' :: ']' :: cs) =
    (if depth ≤ 1 then none else some (Json.array [])).map fun k => (k, cs) := by
  simp only [readValue, skipSpace_cons (c := '[') (by decide),
    skipSpace_cons (c := ']') (by decide)]
  split <;> rfl

theorem readValue_emptyObject : readValue (fuel + 1) depth ('\x7b' :: '\x7d' :: cs) =
    (if depth ≤ 1 then none else some (Json.object [])).map fun k => (k, cs) := by
  simp only [readValue, skipSpace_cons (c := '\x7b') (by decide),
    skipSpace_cons (c := '\x7d') (by decide)]
  split <;> rfl

theorem readValue_number {c : Char} (hc : c = '-' ∨ isDigit c = true) :
    readValue (fuel + 1) depth (c :: cs) =
      (readSigned (c :: cs)).map fun (n, rest) => (.number n, rest) := by
  rcases hc with rfl | hd
  · simp only [readValue, skipSpace_cons (c := '-') (by decide), readSigned]
    cases readNumber true cs <;> rfl
  · have hstarts : Starts c := .inl hd
    rw [readSigned_digit hd]
    simp only [readValue, hstarts.skipSpace]
    -- A digit starts nothing but a number.
    split
    case h_9 => cases readNumber false (c :: cs) <;> rfl
    all_goals
      cases ‹c :: cs = _›
      try cases hd

end

theorem readString_quote (s : String) (rest : List Char) :
    (quote s).toList ++ rest = '"' :: (s.toList.flatMap escapeChar ++ '"' :: rest) := by
  rw [toList_quote, List.cons_append, List.append_assoc, List.singleton_append]

theorem readItems_step {fuel depth : Nat} {cs rest : List Char} {item : Json}
    (h : readValue fuel depth cs = some (item, ',' :: rest)) :
    readItems (fuel + 1) depth cs =
      (readItems fuel depth rest).map fun (items, rest) => (item :: items, rest) := by
  simp only [readItems, h, Option.bind_eq_bind, Option.bind_some,
    skipSpace_cons (c := ',') (by decide)]
  cases readItems fuel depth rest <;> rfl

theorem readItems_last {fuel depth : Nat} {cs rest : List Char} {item : Json}
    (h : readValue fuel depth cs = some (item, ']' :: rest)) :
    readItems (fuel + 1) depth cs = some ([item], rest) := by
  simp only [readItems, h, Option.bind_eq_bind, Option.bind_some,
    skipSpace_cons (c := ']') (by decide)]
  rfl

theorem readItems_none {fuel depth : Nat} {cs : List Char} (h : readValue fuel depth cs = none) :
    readItems (fuel + 1) depth cs = none := by
  simp only [readItems, h]
  rfl

section
variable {fuel depth : Nat} {read : Members} {name : String} {value : Json} {cs rest : List Char}

theorem readMembers_step (h : readValue fuel depth cs = some (value, ',' :: rest)) :
    readMembers (fuel + 1) depth read ((quote name).toList ++ ':' :: cs) =
      readMembers fuel depth (Members.put name value read) rest := by
  simp only [readString_quote, readMembers, skipSpace_cons (c := '"') (by decide),
    readString_escapes, skipSpace_cons (c := ':') (by decide), h, Option.bind_eq_bind,
    Option.bind_some, skipSpace_cons (c := ',') (by decide)]

theorem readMembers_last (h : readValue fuel depth cs = some (value, '\x7d' :: rest)) :
    readMembers (fuel + 1) depth read ((quote name).toList ++ ':' :: cs) =
      some (Members.put name value read, rest) := by
  simp only [readString_quote, readMembers, skipSpace_cons (c := '"') (by decide),
    readString_escapes, skipSpace_cons (c := ':') (by decide), h, Option.bind_eq_bind,
    Option.bind_some, skipSpace_cons (c := '\x7d') (by decide)]
  rfl

theorem readMembers_none (h : readValue fuel depth cs = none) :
    readMembers (fuel + 1) depth read ((quote name).toList ++ ':' :: cs) = none := by
  simp only [readString_quote, readMembers, skipSpace_cons (c := '"') (by decide),
    readString_escapes, skipSpace_cons (c := ':') (by decide), h, Option.bind_eq_bind,
    Option.bind_some]
  rfl

end

/-! ## Round trip -/

/-- The text of a value is read to its end, whatever ends it, given fuel for its characters. -/
def IsRead (j : Json) : Prop :=
  ∀ {fuel depth : Nat} {rest : List Char}, 2 * j.text.toList.length ≤ fuel → Ends rest →
    readValue fuel depth (j.text.toList ++ rest) = (reread depth j).map fun k => (k, rest)

/-- So are the items of an array, which have one reader more. -/
def AreRead (items : List Json) : Prop :=
  ∀ {fuel depth : Nat} {rest : List Char}, 2 * (itemsText items).length + 1 ≤ fuel →
    readItems fuel depth (itemsText items ++ ']' :: rest) =
      (reread.rereadItems depth items).map fun ks => (ks, rest)

/-- Members are put after those that were read before, if no name comes twice. -/
def MembersAreRead (members : Members) : Prop :=
  ∀ {fuel depth : Nat} {read : Members} {rest : List Char},
    (Members.names read ++ Members.names members).Nodup →
    2 * (membersText members).length + 1 ≤ fuel →
      readMembers fuel depth read (membersText members ++ '\x7d' :: rest) =
        (reread.rereadMembers depth members).map fun ms => (read ++ ms, rest)

/-- There is fuel for the first character of a value. -/
theorem exists_succ_of_fuel {j : Json} {fuel : Nat} (hf : 2 * j.text.toList.length ≤ fuel) :
    ∃ k, fuel = k + 1 := by
  obtain ⟨c, cs, hcs, -⟩ := j.text_eq_cons
  rw [hcs, List.length_cons] at hf
  exact Nat.exists_eq_add_one.mpr (by omega)

theorem isRead_number {n : JsonNumber} (hn : n.IsProper) : IsRead (.number n) := by
  intro fuel depth rest hf hr
  obtain ⟨fuel, rfl⟩ := exists_succ_of_fuel hf
  obtain ⟨first, after, htext, hfirst⟩ := n.text_eq_cons
  rw [text, htext, List.cons_append, readValue_number _ _ _ hfirst, ← List.cons_append, ← htext,
    n.readSigned_text hn hr, reread]
  cases n.reread <;> rfl

theorem isRead_string (s : String) : IsRead (.string s) := by
  intro fuel depth rest hf hr
  obtain ⟨fuel, rfl⟩ := exists_succ_of_fuel hf
  rw [text, readString_quote, readValue_quote, readString_escapes]
  rfl

theorem isRead_array {items : List Json} (h : items ≠ [] → AreRead items) :
    IsRead (.array items) := by
  intro fuel depth rest hf hr
  obtain ⟨fuel, rfl⟩ := exists_succ_of_fuel hf
  cases items with
  | nil =>
    simp only [toList_array, itemsText, text.itemTexts, String.intercalate_nil, reread]
    exact readValue_emptyArray fuel depth rest
  | cons item items =>
    obtain ⟨first, after, htext, hfirst⟩ := itemsText_eq_cons item items
    rw [toList_array, List.length_cons, List.length_append, List.length_singleton] at hf
    have hread := @h (List.cons_ne_nil item items) fuel (depth - 1) rest (by omega)
    rw [htext, List.cons_append] at hread
    rw [toList_array, htext, List.cons_append, List.append_assoc, List.cons_append,
      List.singleton_append, readValue_bracket _ _ _ hfirst, hread, reread]
    split
    · rfl
    · cases reread.rereadItems (depth - 1) (item :: items) <;> rfl

theorem isRead_object {members : Members} (hn : (Members.names members).Nodup)
    (h : members ≠ [] → MembersAreRead members) : IsRead (.object members) := by
  intro fuel depth rest hf hr
  obtain ⟨fuel, rfl⟩ := exists_succ_of_fuel hf
  cases members with
  | nil =>
    simp only [toList_object, membersText, text.memberTexts, String.intercalate_nil, reread]
    exact readValue_emptyObject fuel depth rest
  | cons member members =>
    obtain ⟨after, htext⟩ := membersText_eq_cons member members
    rw [toList_object, List.length_cons, List.length_append, List.length_singleton] at hf
    have hread := @h (List.cons_ne_nil member members) fuel (depth - 1) [] rest hn (by omega)
    rw [htext, List.cons_append] at hread
    rw [toList_object, htext, List.cons_append, List.append_assoc, List.cons_append,
      List.singleton_append, readValue_brace, hread, reread]
    split
    · rfl
    · cases reread.rereadMembers (depth - 1) (member :: members) <;> rfl

theorem areRead_singleton {item : Json} (h : IsRead item) : AreRead [item] := by
  intro fuel depth rest hf
  obtain ⟨fuel, rfl⟩ : ∃ k, fuel = k + 1 := Nat.exists_eq_add_one.mpr (by omega)
  rw [itemsText_singleton] at hf ⊢
  have hread := @h fuel depth _ (by omega) (ends_cons (.inr (.inl rfl)) rest)
  cases hk : reread depth item with
  | none =>
    rw [hk] at hread
    rw [readItems_none hread, reread.rereadItems, hk]
    rfl
  | some k =>
    rw [hk] at hread
    rw [readItems_last hread, reread.rereadItems, hk]
    rfl

theorem areRead_cons {item next : Json} {items : List Json} (h : IsRead item)
    (hs : AreRead (next :: items)) : AreRead (item :: next :: items) := by
  intro fuel depth rest hf
  obtain ⟨fuel, rfl⟩ : ∃ k, fuel = k + 1 := Nat.exists_eq_add_one.mpr (by omega)
  rw [itemsText_cons] at hf ⊢
  rw [List.length_append, List.length_cons] at hf
  have hread := @h fuel depth _ (by omega)
    (ends_cons (.inl rfl) (itemsText (next :: items) ++ ']' :: rest))
  rw [List.append_assoc, List.cons_append]
  cases hk : reread depth item with
  | none =>
    rw [hk] at hread
    rw [readItems_none hread, reread.rereadItems, hk]
    rfl
  | some k =>
    rw [hk] at hread
    rw [readItems_step hread, reread.rereadItems, hk, hs (by omega)]
    cases reread.rereadItems depth (next :: items) <;> rfl

section
variable {name : String} {value : Json}

theorem membersAreRead_singleton (h : IsRead value) : MembersAreRead [(name, value)] := by
  intro fuel depth read rest hn hf
  obtain ⟨fuel, rfl⟩ : ∃ k, fuel = k + 1 := Nat.exists_eq_add_one.mpr (by omega)
  have hname : name ∉ Members.names read := fun hmem =>
    (List.nodup_append.mp hn).2.2 name hmem name List.mem_cons_self rfl
  rw [membersText_singleton] at hf ⊢
  rw [List.length_append, List.length_cons] at hf
  have hread := @h fuel depth _ (by omega) (ends_cons (.inr (.inr rfl)) rest)
  rw [List.append_assoc, List.cons_append]
  cases hk : reread depth value with
  | none =>
    rw [hk] at hread
    rw [readMembers_none hread, reread.rereadMembers, hk]
    rfl
  | some k =>
    rw [hk] at hread
    rw [readMembers_last hread, reread.rereadMembers, hk, Members.put_of_not_mem hname]
    rfl

theorem membersAreRead_cons {next : String × Json} {members : Members} (h : IsRead value)
    (hs : MembersAreRead (next :: members)) :
    MembersAreRead ((name, value) :: next :: members) := by
  intro fuel depth read rest hn hf
  obtain ⟨fuel, rfl⟩ : ∃ k, fuel = k + 1 := Nat.exists_eq_add_one.mpr (by omega)
  have hname : name ∉ Members.names read := fun hmem =>
    (List.nodup_append.mp hn).2.2 name hmem name List.mem_cons_self rfl
  rw [membersText_cons] at hf ⊢
  rw [List.length_append, List.length_cons, List.length_append, List.length_cons] at hf
  have hread := @h fuel depth _ (by omega)
    (ends_cons (.inl rfl) (membersText (next :: members) ++ '\x7d' :: rest))
  rw [List.append_assoc, List.cons_append, List.append_assoc, List.cons_append]
  cases hk : reread depth value with
  | none =>
    rw [hk] at hread
    rw [readMembers_none hread, reread.rereadMembers, hk]
    rfl
  | some k =>
    have hnext :
        (Members.names (read ++ [(name, k)]) ++ Members.names (next :: members)).Nodup := by
      simpa [Members.names] using hn
    rw [hk] at hread
    rw [readMembers_step hread, reread.rereadMembers, hk, Members.put_of_not_mem hname,
      hs hnext (by omega)]
    cases reread.rereadMembers depth (next :: members) with
    | none => rfl
    | some ms => simp

end

mutual

theorem isRead : (j : Json) → j.IsProper → IsRead j
  | .null, _ => fun hf _ => by
    obtain ⟨fuel, rfl⟩ := exists_succ_of_fuel hf
    rfl
  | .bool b, _ => fun hf _ => by
    obtain ⟨fuel, rfl⟩ := exists_succ_of_fuel hf
    cases b <;> rfl
  | .number _, hn => isRead_number hn
  | .string s, _ => isRead_string s
  | .array items, h => isRead_array fun hne => areRead items hne h
  | .object members, h => isRead_object h.1 fun hne => membersAreRead members hne h.2

theorem areRead : (items : List Json) → items ≠ [] → IsProper.areProper items → AreRead items
  | [], hne, _ => absurd rfl hne
  | [item], _, h => areRead_singleton (isRead item h.1)
  | item :: next :: items, _, h =>
    areRead_cons (isRead item h.1) (areRead (next :: items) (List.cons_ne_nil _ _) h.2)

theorem membersAreRead : (members : Members) → members ≠ [] →
    IsProper.memberValuesProper members → MembersAreRead members
  | [], hne, _ => absurd rfl hne
  | [(_, value)], _, h => membersAreRead_singleton (isRead value h.1)
  | (_, value) :: next :: members, _, h =>
    membersAreRead_cons (isRead value h.1)
      (membersAreRead (next :: members) (List.cons_ne_nil _ _) h.2)

end

theorem parse_text {j : Json} (h : j.IsProper) : parse j.text = reread 128 j := by
  have hread := @isRead j h (2 * j.text.toList.length + 2) 128 [] (by omega) ends_nil
  rw [List.append_nil] at hread
  rw [parse, hread]
  cases reread 128 j <;> rfl

/-! ## What is kept -/

/-- A float that its own text is read as. -/
def IsReadBack (x : Binary64) : Prop :=
  parse x.text = some (.number (.float x))

theorem isReadBack_iff {x : Binary64} :
    IsReadBack x ↔ (JsonNumber.float x).reread = some (.float x) := by
  have hparse : parse x.text = reread 128 (.number (.float x)) :=
    parse_text (j := .number (.float x)) trivial
  rw [IsReadBack, hparse, reread]
  cases (JsonNumber.float x).reread with
  | none => simp
  | some n => simp

section
variable {depth : Nat}

theorem reread_number_iff {n : JsonNumber} (h : n.IsProper) (hd : 0 < depth) :
    reread depth (.number n) = some (.number n) ↔
      (Json.number n).nesting < depth ∧ ∀ x ∈ (Json.number n).floats, IsReadBack x := by
  cases n with
  | int n => simp [reread, JsonNumber.reread_int h, nesting, floats, hd]
  | float x =>
    simp only [reread, nesting, floats, hd, true_and, List.mem_singleton, forall_eq, isReadBack_iff]
    cases (JsonNumber.float x).reread <;> simp

/-- Brackets cost one level of depth. -/
theorem bracketed_iff {α : Type} {build : List α → Json} (hb : Function.Injective build)
    {read : Nat → Option (List α)} {parts : List α} {levels : Nat} {kept : Prop} (hd : 0 < depth)
    (h : ∀ {depth : Nat}, 0 < depth → (read depth = some parts ↔ levels < depth ∧ kept)) :
    (if depth ≤ 1 then none else (read (depth - 1)).map build) = some (build parts) ↔
      1 + levels < depth ∧ kept := by
  by_cases h1 : depth ≤ 1
  · have hlt : ¬ 1 + levels < depth := by omega
    simp [h1, hlt]
  · have hlt : levels < depth - 1 ↔ 1 + levels < depth := by omega
    rw [if_neg h1, ← hlt, ← h (by omega), Option.map_eq_some_iff]
    constructor
    · rintro ⟨parts', hparts, heq⟩
      rw [hparts, hb heq]
    · exact fun hparts => ⟨parts, hparts, rfl⟩

/-- A list is kept if its first part is and the others are. -/
theorem cons_kept_iff {α β : Type} {first : Option α} {rest : Option (List β)} {f : α → β}
    (hf : Function.Injective f) {a : α} {bs : List β} {n m : Nat} {xs ys : List Binary64}
    (hfirst : first = some a ↔ n < depth ∧ ∀ x ∈ xs, IsReadBack x)
    (hrest : rest = some bs ↔ m < depth ∧ ∀ x ∈ ys, IsReadBack x) :
    (first.bind fun a => rest.map (f a :: ·)) = some (f a :: bs) ↔
      max n m < depth ∧ ∀ x ∈ xs ++ ys, IsReadBack x := by
  have hcons : (first.bind fun a => rest.map (f a :: ·)) = some (f a :: bs) ↔
      first = some a ∧ rest = some bs := by
    cases first with
    | none => simp
    | some a' => cases rest with
      | none => simp
      | some bs' => simp [hf.eq_iff]
  rw [hcons, hfirst, hrest, Nat.max_lt]
  simp only [List.mem_append, or_imp, forall_and]
  exact and_and_and_comm

mutual

theorem reread_eq_self_iff : (j : Json) → j.IsProper → ∀ {depth : Nat}, 0 < depth →
    (reread depth j = some j ↔ j.nesting < depth ∧ ∀ x ∈ j.floats, IsReadBack x)
  | .null, _, _, hd | .bool _, _, _, hd | .string _, _, _, hd => by
    simp [reread, nesting, floats, hd]
  | .number _, h, _, hd => reread_number_iff h hd
  | .array items, h, _, hd =>
    bracketed_iff (fun _ _ => Json.array.inj) hd (rereadItems_eq_self_iff items h)
  | .object members, h, _, hd =>
    bracketed_iff (fun _ _ => Json.object.inj) hd (rereadMembers_eq_self_iff members h.2)

theorem rereadItems_eq_self_iff : (items : List Json) → IsProper.areProper items →
    ∀ {depth : Nat}, 0 < depth → (reread.rereadItems depth items = some items ↔
      nesting.deepest items < depth ∧ ∀ x ∈ floats.floatsOf items, IsReadBack x)
  | [], _, _, hd => by simp [reread.rereadItems, nesting.deepest, floats.floatsOf, hd]
  | item :: rest, h, _, hd => cons_kept_iff (fun _ _ => id) (reread_eq_self_iff item h.1 hd)
    (rereadItems_eq_self_iff rest h.2 hd)

theorem rereadMembers_eq_self_iff : (members : Members) → IsProper.memberValuesProper members →
    ∀ {depth : Nat}, 0 < depth → (reread.rereadMembers depth members = some members ↔
      nesting.deepestMember members < depth ∧ ∀ x ∈ floats.memberFloats members, IsReadBack x)
  | [], _, _, hd => by simp [reread.rereadMembers, nesting.deepestMember, floats.memberFloats, hd]
  | (name, value) :: rest, h, _, hd => cons_kept_iff (f := fun value => (name, value))
    (fun _ _ he => (Prod.mk.inj he).2) (reread_eq_self_iff value h.1 hd)
    (rereadMembers_eq_self_iff rest h.2 hd)

end

end

/-- A value is read back from its text exactly if it nests no deeper than its reader goes and each
of its floats is read back from its own text. -/
theorem parse_text_eq_self_iff {j : Json} (h : j.IsProper) :
    parse j.text = some j ↔ j.nesting ≤ 127 ∧ ∀ x ∈ j.floats, IsReadBack x := by
  rw [parse_text h, reread_eq_self_iff j h (by decide), Nat.lt_succ_iff]

end Json

end Sagas
