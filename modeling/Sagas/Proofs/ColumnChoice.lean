import Mathlib.Data.List.Induction
import Sagas.Proofs.PathSegments

/-! The column that mappings give a path, said on the segments of paths alone. The same column comes
out when paths are taken apart by bytes, and the order of mappings matters only among those of one
kind and path. -/
namespace Sagas.Mapping

variable {mappings : List Mapping} {path column : String} {m : Mapping} {p q : Mapping → Prop}

/-! ## The last mapping of a kind -/

/-- The last mapping with a property. -/
def LastSuch (p : Mapping → Prop) (mappings : List Mapping) (m : Mapping) : Prop :=
  ∃ before after, mappings = before ++ m :: after ∧ p m ∧ ∀ n ∈ after, ¬ p n

/-- Of the last such mapping only the mappings with that property matter. -/
theorem getLast?_filter_eq_some_iff [DecidablePred p] :
    (mappings.filter fun m => p m).getLast? = some m ↔ LastSuch p mappings m := by
  rw [List.getLast?_filter, List.find?_eq_some_iff_append]
  constructor
  · rintro ⟨hm, after, before, hsplit, hafter⟩
    refine ⟨before.reverse, after.reverse, ?_, of_decide_eq_true hm, fun n hn => ?_⟩
    · rw [← List.reverse_reverse mappings, hsplit]
      simp
    · simpa using hafter n (List.mem_reverse.mp hn)
  · rintro ⟨before, after, rfl, hm, hafter⟩
    refine ⟨decide_eq_true hm, after.reverse, before.reverse, by simp, fun n hn => ?_⟩
    simpa using hafter n (List.mem_reverse.mp hn)

theorem LastSuch.unique (h : LastSuch p mappings m) {n : Mapping} (hn : LastSuch p mappings n) :
    m = n := by
  classical
  rw [← getLast?_filter_eq_some_iff] at h hn
  exact Option.some.inj (h.symm.trans hn)

/-- The last of the mappings with a property whose paths are greatest. -/
def LastGreatest (size : String → Nat) (p : Mapping → Prop) (mappings : List Mapping)
    (m : Mapping) : Prop :=
  ∃ before after, mappings = before ++ m :: after ∧ p m ∧
    (∀ n ∈ before, p n → size n.path ≤ size m.path) ∧ ∀ n ∈ after, p n → size n.path < size m.path

namespace LastGreatest

variable {size : String → Nat}

theorem holds (h : LastGreatest size p mappings m) : p m := by
  obtain ⟨before, after, -, hm, -, -⟩ := h
  exact hm

theorem mem (h : LastGreatest size p mappings m) : m ∈ mappings := by
  obtain ⟨before, after, rfl, -, -, -⟩ := h
  simp

theorem le (h : LastGreatest size p mappings m) {n : Mapping} (hn : n ∈ mappings) (hp : p n) :
    size n.path ≤ size m.path := by
  obtain ⟨before, after, rfl, -, hbefore, hafter⟩ := h
  rcases List.mem_append.mp hn with hn | hn
  · exact hbefore n hn hp
  · rcases List.mem_cons.mp hn with rfl | hn
    · exact Nat.le_refl _
    · exact Nat.le_of_lt (hafter n hn hp)

theorem lastSuch (h : LastGreatest size p mappings m) (hq : q m)
    (hsame : ∀ n, q n → p n ∧ size n.path = size m.path) : LastSuch q mappings m := by
  obtain ⟨before, after, hsplit, -, -, hafter⟩ := h
  refine ⟨before, after, hsplit, hq, fun n hn hqn => ?_⟩
  obtain ⟨hp, hsize⟩ := hsame n hqn
  exact absurd hsize (Nat.ne_of_lt (hafter n hn hp))

/-- The last and greatest mapping stays so when a smaller one is added. -/
theorem concat (h : LastGreatest size p mappings m) {n : Mapping}
    (hn : p n → size n.path < size m.path) : LastGreatest size p (mappings ++ [n]) m := by
  obtain ⟨before, after, rfl, hm, hbefore, hafter⟩ := h
  refine ⟨before, after ++ [n], by simp, hm, hbefore, fun k hk => ?_⟩
  rcases List.mem_append.mp hk with hk | hk
  · exact hafter k hk
  · rw [List.mem_singleton.mp hk]
    exact hn

/-- A mapping that is added at the end is the last and greatest if no other is greater. -/
theorem added (hm : p m) (hle : ∀ k ∈ mappings, p k → size k.path ≤ size m.path) :
    LastGreatest size p (mappings ++ [m]) m :=
  ⟨mappings, [], rfl, hm, hle, by simp⟩

theorem unique (h : LastGreatest size p mappings m) {n : Mapping}
    (hn : LastGreatest size p mappings n) : m = n := by
  have hsize : size m.path = size n.path :=
    Nat.le_antisymm (hn.le h.mem h.holds) (h.le hn.mem hn.holds)
  have hlast : LastSuch (fun k => p k ∧ size k.path = size m.path) mappings m :=
    h.lastSuch ⟨h.holds, rfl⟩ fun _ hk => hk
  exact hlast.unique (hn.lastSuch ⟨hn.holds, hsize.symm⟩ fun _ hk => ⟨hk.1, hk.2.trans hsize⟩)

end LastGreatest

/-- The better of two mappings by the size of their paths, the later on a tie. -/
def greater (size : String → Nat) (best : Option Mapping) (m : Mapping) : Option Mapping :=
  match best with
  | none => some m
  | some b => if size b.path ≤ size m.path then some m else best

theorem deeper_eq_greater : deeper = greater String.length := by
  funext best m
  cases best <;> rfl

theorem foldl_greater_eq_none_iff (size : String → Nat) (best : Option Mapping) :
    mappings.foldl (greater size) best = none ↔ best = none ∧ mappings = [] := by
  induction mappings generalizing best with
  | nil => simp
  | cons m rest ih =>
    rw [List.foldl_cons, ih]
    cases best with
    | none => simp [greater]
    | some b =>
      rw [greater]
      split <;> simp

section
variable {size : String → Nat} [DecidablePred p]

theorem lastGreatest_of_foldl
    (h : (mappings.filter fun m => p m).foldl (greater size) none = some m) :
    LastGreatest size p mappings m := by
  induction mappings using List.reverseRecOn generalizing m with
  | nil => cases h
  | append_singleton mappings n ih =>
    rw [List.filter_append, List.foldl_append] at h
    by_cases hn : p n
    · have hlast : [n].filter (fun m => p m) = [n] := by simpa using hn
      rw [hlast, List.foldl_cons, List.foldl_nil] at h
      cases hbest : (mappings.filter fun m => p m).foldl (greater size) none with
      | none =>
        rw [hbest] at h
        cases h
        have hnil := ((foldl_greater_eq_none_iff size none).mp hbest).2
        have hno : ∀ k ∈ mappings, ¬ p k := by simpa [List.filter_eq_nil_iff] using hnil
        exact .added hn fun k hk hp => absurd hp (hno k hk)
      | some b =>
        rw [hbest, greater] at h
        split at h
        · rename_i hle
          cases h
          exact .added hn fun k hk hp => Nat.le_trans ((ih hbest).le hk hp) hle
        · rename_i hlt
          cases h
          exact (ih hbest).concat fun _ => Nat.lt_of_not_le hlt
    · have hlast : [n].filter (fun m => p m) = [] := by simpa using hn
      rw [hlast, List.foldl_nil] at h
      exact (ih h).concat fun hp => absurd hp hn

/-- Going through the mappings with a property leaves the last of the greatest of them. -/
theorem foldl_greater_eq_some_iff :
    (mappings.filter fun m => p m).foldl (greater size) none = some m ↔
      LastGreatest size p mappings m := by
  constructor
  · exact lastGreatest_of_foldl
  · intro h
    cases hbest : (mappings.filter fun m => p m).foldl (greater size) none with
    | none =>
      have hnil := ((foldl_greater_eq_none_iff size none).mp hbest).2
      have hmem : m ∈ mappings.filter fun m => p m :=
        List.mem_filter.mpr ⟨h.mem, decide_eq_true h.holds⟩
      rw [hnil] at hmem
      cases hmem
    | some b => rw [(lastGreatest_of_foldl hbest).unique h]

end

/-! ## The column by segments -/

/-- A mapping of just this path. -/
def IsExactFor (path : String) (m : Mapping) : Prop :=
  m.kind = .exact ∧ m.path = path

/-- A mapping of all that lies below its path, where this path is: it has the segments of the
mapping and then others. -/
structure Covers (m : Mapping) (path : String) (rest : List String) : Prop where
  kind : m.kind = .subtree
  rest_ne_nil : rest ≠ []
  segments_eq : segments path = segments m.path ++ rest

def IsAbove (path : String) (m : Mapping) : Prop :=
  ∃ rest, m.Covers path rest

/-- The column that mappings give a path, by segments: that of the last exact mapping of the path;
if it has none, that of the mapping with the most segments above the path, the last of those,
followed by the remaining segments; if there is none above it, its last segment. -/
inductive ColumnBySegments (mappings : List Mapping) (path : String) : String → Prop
  | exact {m : Mapping} : LastSuch (IsExactFor path) mappings m →
      ColumnBySegments mappings path m.name
  | below {m : Mapping} {rest : List String} : (∀ n ∈ mappings, ¬ IsExactFor path n) →
      LastGreatest (fun path => (segments path).length) (IsAbove path) mappings m →
      m.Covers path rest → ColumnBySegments mappings path (m.name ++ String.join rest)
  | leaf : (∀ n ∈ mappings, ¬ IsExactFor path n) → (∀ n ∈ mappings, ¬ IsAbove path n) →
      ColumnBySegments mappings path ((segments path).getLast (segments_ne_nil path))

theorem isAbove_iff : IsAbove path m ↔ m.kind = .subtree ∧ isParent m.path path = true := by
  rw [isParent_iff_segments]
  constructor
  · rintro ⟨rest, h⟩
    exact ⟨h.kind, rest, h.rest_ne_nil, h.segments_eq⟩
  · rintro ⟨hkind, rest, hrest, hsegments⟩
    exact ⟨rest, hkind, hrest, hsegments⟩

instance : DecidablePred (IsAbove path) := fun _ =>
  decidable_of_iff _ isAbove_iff.symm

theorem exactFor?_eq_some_iff :
    exactFor? mappings path = some m ↔ LastSuch (IsExactFor path) mappings m := by
  have hfilter : exactFor? mappings path =
      (mappings.filter fun m => m.kind = .exact ∧ m.path = path).getLast? := by
    rw [exactFor?, List.getLast?_filter]
    simp only [Bool.decide_and]
  rw [hfilter]
  exact getLast?_filter_eq_some_iff

theorem exactFor?_eq_none_iff :
    exactFor? mappings path = none ↔ ∀ n ∈ mappings, ¬ IsExactFor path n := by
  simp [exactFor?, IsExactFor]

theorem filter_above (mappings : List Mapping) (path : String) :
    (mappings.filter fun m => m.kind = .subtree && isParent m.path path) =
      mappings.filter fun m => IsAbove path m := by
  apply List.filter_congr
  intro m _
  rw [Bool.eq_iff_iff, decide_eq_true_iff, isAbove_iff, Bool.and_eq_true, decide_eq_true_iff]

/-- Above one path it makes no difference by which size the mappings are compared. -/
theorem LastGreatest.of_size {size size' : String → Nat} (h : GrowsDown size)
    (h' : GrowsDown size') (hm : LastGreatest size (IsAbove path) mappings m) :
    LastGreatest size' (IsAbove path) mappings m := by
  have hle : ∀ {a b : Mapping}, IsAbove path a → IsAbove path b →
      (size a.path ≤ size b.path ↔ size' a.path ≤ size' b.path) := fun ha hb =>
    h.le_iff h' (isAbove_iff.mp ha).2 (isAbove_iff.mp hb).2
  obtain ⟨before, after, hsplit, hp, hbefore, hafter⟩ := hm
  refine ⟨before, after, hsplit, hp, fun n hn ha => ?_, fun n hn ha => ?_⟩
  · exact (hle ha hp).mp (hbefore n hn ha)
  · have hlt := hafter n hn ha
    rw [← Nat.not_le] at hlt ⊢
    exact mt (hle hp ha).mpr hlt

theorem subtreeFor?_eq_some_iff {size : String → Nat} (h : GrowsDown size) :
    subtreeFor? mappings path = some m ↔ LastGreatest size (IsAbove path) mappings m := by
  rw [subtreeFor?, filter_above, deeper_eq_greater, foldl_greater_eq_some_iff]
  exact ⟨.of_size growsDown_length h, .of_size h growsDown_length⟩

theorem subtreeFor?_eq_none_iff :
    subtreeFor? mappings path = none ↔ ∀ n ∈ mappings, ¬ IsAbove path n := by
  rw [subtreeFor?, filter_above, deeper_eq_greater, foldl_greater_eq_none_iff]
  simp [List.filter_eq_nil_iff]

/-- What a mapping covers is its path, a dot and the remaining segments. -/
theorem Covers.exists_tail {rest : List String} (h : m.Covers path rest) :
    ∃ tail, path = m.path ++ "." ++ tail ∧ segments tail = rest := by
  obtain ⟨tail, rfl⟩ := isParent_iff.mp (isAbove_iff.mp ⟨rest, h⟩).2
  have hsegments := h.segments_eq
  rw [segments_append] at hsegments
  exact ⟨tail, rfl, List.append_cancel_left hsegments⟩

theorem Covers.columnBelow {rest : List String} (h : m.Covers path rest) :
    m.columnBelow path = m.name ++ String.join rest := by
  obtain ⟨tail, rfl, hrest⟩ := h.exists_tail
  have hdrop : (m.path ++ "." ++ tail).toList.drop (m.path.length + 1) = tail.toList := by
    rw [String.toList_append, List.drop_left' (by simp [String.length_toList])]
  rw [Mapping.columnBelow, hdrop, ← hrest, join_segments]

/-- The column of a path is the one that its segments give. -/
theorem columnBySegments_iff :
    ColumnBySegments mappings path column ↔ column = resolve mappings path := by
  constructor
  · intro h
    cases h with
    | exact hm => rw [resolve, exactFor?_eq_some_iff.mpr hm]
    | below hno hm hcovers =>
      rw [resolve, exactFor?_eq_none_iff.mpr hno,
        (subtreeFor?_eq_some_iff growsDown_segments).mpr hm]
      exact hcovers.columnBelow.symm
    | leaf hno habove =>
      rw [resolve, exactFor?_eq_none_iff.mpr hno, subtreeFor?_eq_none_iff.mpr habove]
      exact (leaf_eq_getLast path).symm
  · rintro rfl
    cases hexact : exactFor? mappings path with
    | some m =>
      rw [resolve, hexact]
      exact .exact (exactFor?_eq_some_iff.mp hexact)
    | none =>
      have hno := exactFor?_eq_none_iff.mp hexact
      cases hsubtree : subtreeFor? mappings path with
      | some m =>
        have hm := (subtreeFor?_eq_some_iff growsDown_segments).mp hsubtree
        obtain ⟨rest, hcovers⟩ := hm.holds
        rw [resolve, hexact, hsubtree]
        simp only [hcovers.columnBelow]
        exact .below hno hm hcovers
      | none =>
        rw [resolve, hexact, hsubtree]
        simp only [leaf_eq_getLast]
        exact .leaf hno (subtreeFor?_eq_none_iff.mp hsubtree)

/-! ## The column by bytes -/

/-- The column of a path as found by comparing and cutting bytes; none if a cut is not possible. -/
def resolveByBytes? (mappings : List Mapping) (path : String) : Option String :=
  match exactFor? mappings path with
  | some m => some m.name
  | none =>
    match (mappings.filter fun m => m.kind = .subtree && isParentByBytes m.path path).foldl
        (greater String.utf8ByteSize) none with
    | some m =>
      (textFrom? path (m.path.utf8ByteSize + 1)).map fun rest =>
        m.name ++ String.join (segments rest)
    | none => some (leaf path)

theorem foldl_greater_utf8ByteSize (mappings : List Mapping) (path : String) :
    (mappings.filter fun m => m.kind = .subtree && isParentByBytes m.path path).foldl
      (greater String.utf8ByteSize) none = subtreeFor? mappings path := by
  simp only [isParentByBytes_eq, filter_above]
  ext m
  rw [foldl_greater_eq_some_iff, subtreeFor?_eq_some_iff growsDown_utf8ByteSize]

/-- The bytes behind the path of a mapping and a dot can be cut off in all that it covers. -/
theorem Covers.textFrom? {rest : List String} (h : m.Covers path rest) :
    ∃ tail, Mapping.textFrom? path (m.path.utf8ByteSize + 1) = some tail ∧
      segments tail = rest := by
  obtain ⟨tail, rfl, hrest⟩ := h.exists_tail
  have hsize : m.path.utf8ByteSize + 1 = (m.path ++ ".").utf8ByteSize := by
    rw [String.utf8ByteSize_append, utf8ByteSize_dot]
  exact ⟨tail, by rw [hsize, textFrom?_append], hrest⟩

theorem resolveByBytes?_eq (mappings : List Mapping) (path : String) :
    resolveByBytes? mappings path = some (resolve mappings path) := by
  rw [resolveByBytes?, resolve, foldl_greater_utf8ByteSize]
  cases exactFor? mappings path with
  | some m => rfl
  | none =>
    cases hsubtree : subtreeFor? mappings path with
    | none => rfl
    | some m =>
      obtain ⟨rest, hcovers⟩ := ((subtreeFor?_eq_some_iff growsDown_length).mp hsubtree).holds
      obtain ⟨tail, htail, hrest⟩ := hcovers.textFrom?
      simp only [htail, Option.map_some, hrest, hcovers.columnBelow]

/-! ## The order of mappings -/

/-- Lists of the same mappings in which those of one kind and path have the same order. -/
def SameOrders (first second : List Mapping) : Prop :=
  ∀ kind path, (first.filter fun m => m.kind = kind ∧ m.path = path) =
    second.filter fun m => m.kind = kind ∧ m.path = path

variable {other : List Mapping}

theorem SameOrders.mem (h : SameOrders mappings other) (hm : m ∈ mappings) : m ∈ other := by
  have hfilter : m ∈ mappings.filter fun n => n.kind = m.kind ∧ n.path = m.path :=
    List.mem_filter.mpr ⟨hm, by simp⟩
  rw [h] at hfilter
  exact (List.mem_filter.mp hfilter).1

theorem SameOrders.symm (h : SameOrders mappings other) : SameOrders other mappings :=
  fun kind path => (h kind path).symm

/-- The last mapping of a kind and path is the same in both orders. -/
theorem SameOrders.lastSuch (h : SameOrders mappings other) {kind : Kind} {place : String}
    (hm : LastSuch (fun k => k.kind = kind ∧ k.path = place) mappings m) :
    LastSuch (fun k => k.kind = kind ∧ k.path = place) other m := by
  rw [← getLast?_filter_eq_some_iff] at hm ⊢
  rw [← h, hm]

theorem SameOrders.lastGreatest (h : SameOrders mappings other) {size : String → Nat}
    (hsize : GrowsDown size) (hm : LastGreatest size (IsAbove path) mappings m) :
    LastGreatest size (IsAbove path) other m := by
  obtain ⟨n, hn⟩ : ∃ n, LastGreatest size (IsAbove path) other n := by
    cases hother : subtreeFor? other path with
    | none => exact absurd hm.holds (subtreeFor?_eq_none_iff.mp hother m (h.mem hm.mem))
    | some n => exact ⟨n, (subtreeFor?_eq_some_iff hsize).mp hother⟩
  -- Both are greatest, so they have one path, and both are the last of that path.
  have hpath : n.path = m.path := by
    refine hsize.eq_of_eq (isAbove_iff.mp hn.holds).2 (isAbove_iff.mp hm.holds).2 ?_
    exact Nat.le_antisymm (hm.le (h.symm.mem hn.mem) hn.holds) (hn.le (h.mem hm.mem) hm.holds)
  have hlast : ∀ {k : Mapping} {ks : List Mapping}, LastGreatest size (IsAbove path) ks k →
      LastSuch (fun i => i.kind = .subtree ∧ i.path = k.path) ks k := fun hk =>
    hk.lastSuch ⟨(isAbove_iff.mp hk.holds).1, rfl⟩ fun i hi =>
      ⟨isAbove_iff.mpr ⟨hi.1, hi.2 ▸ (isAbove_iff.mp hk.holds).2⟩, congrArg size hi.2⟩
  have hnlast := hlast hn
  rw [hpath] at hnlast
  rwa [(h.lastSuch (hlast hm)).unique hnlast]

theorem SameOrders.columnBySegments (h : SameOrders mappings other)
    (hc : ColumnBySegments mappings path column) : ColumnBySegments other path column := by
  cases hc with
  | exact hm => exact .exact (h.lastSuch hm)
  | below hno hm hcovers =>
    exact .below (fun n hn => hno n (h.symm.mem hn)) (h.lastGreatest growsDown_segments hm) hcovers
  | leaf hno habove =>
    exact .leaf (fun n hn => hno n (h.symm.mem hn)) fun n hn => habove n (h.symm.mem hn)

/-- The column of a path is the one that its segments give, and comparing and cutting bytes finds
the same: no cut is past the end or inside a character. It stays the same when mappings change
their order, but for those of one kind and path. -/
theorem resolve_by_segments (mappings : List Mapping) (path : String) :
    (∀ column, ColumnBySegments mappings path column ↔ column = resolve mappings path) ∧
      resolveByBytes? mappings path = some (resolve mappings path) ∧
      ∀ other, SameOrders mappings other → resolve other path = resolve mappings path := by
  refine ⟨fun _ => columnBySegments_iff, resolveByBytes?_eq mappings path, fun other h => ?_⟩
  exact (columnBySegments_iff.mp (h.columnBySegments (columnBySegments_iff.mpr rfl))).symm

/-- Mappings of measures in two orders. -/
def measures : List Mapping :=
  [below "Größe" none, below "Größe.Maß" (some "m_"), property "Größe.Maß.cm" "cm",
    below "Größe" (some "g_")]

def sortedMeasures : List Mapping :=
  [property "Größe.Maß.cm" "cm", below "Größe" none, below "Größe" (some "g_"),
    below "Größe.Maß" (some "m_")]

/-- The second mapping of the size counts, before and after the one of the measure is moved behind
it. -/
theorem resolve_measures :
    SameOrders measures sortedMeasures ∧
      resolve sortedMeasures "Größe.Höhe..cm" = resolve measures "Größe.Höhe..cm" ∧
      resolve measures "Größe.Höhe..cm" = "g_Höhecm" ∧
      resolveByBytes? measures "Größe.Maß.mm" = some "m_mm" := by
  have horders : SameOrders measures sortedMeasures := by
    intro kind path
    cases kind with
    | exact => simp [measures, sortedMeasures, List.filter_cons, property, below]
    | subtree =>
      simp only [measures, sortedMeasures, List.filter_cons, property, below]
      by_cases hsize : "Größe" = path
      · subst hsize
        decide +kernel
      · simp [hsize]
  refine ⟨horders, (resolve_by_segments measures _).2.2 _ horders, by decide +kernel, ?_⟩
  rw [(resolve_by_segments measures _).2.1]
  decide +kernel

end Sagas.Mapping
