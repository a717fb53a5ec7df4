import Sagas.Proofs.Binding
import Sagas.Proofs.MissedValues
import Sagas.Proofs.RoleOrder

/-! The paths that are derived from declarations, and when they find the values of the fields. -/
namespace Sagas

/-! ## Layouts of declarations -/

/-- Whether a field is written in documents also if it is not stored. -/
def FieldDeclaration.isWritten (f : FieldDeclaration) : Bool :=
  f.settings.all fun
    | .group "serde" items =>
      items.all fun item => item.name ≠ "skip" && item.name ≠ "skip_serializing"
    | _ => true

namespace SagaPlan

/-- Whether a field gets a role after the fields of a plan; fields of nested types, which have no
plan, get none. -/
def givesRole (plan : Option SagaPlan) (naming : Option String) (f : FieldDeclaration) : Bool :=
  plan.any fun p => p.takesKey naming f || p.takesVersion naming f

/-- The plan after one more field. -/
def next (plan : Option SagaPlan) (naming : Option String) (f : FieldDeclaration) :
    Option SagaPlan :=
  plan.bind fun p => (readField naming p f).toOption

end SagaPlan

inductive FieldPlace where
  | leaf
  | record
  | unstored
  | unwritten

open SagaPlan

/-- What a field is after those of a plan: one with a role is always a value. -/
def placeOf (plan : Option SagaPlan) (naming : Option String) (f : FieldDeclaration)
    (s : FieldSettings) : FieldPlace :=
  if s.skip then
    if f.isWritten then .unstored else .unwritten
  else if givesRole plan naming f || s.nesting.isNone then .leaf
  else .record

/-- How the fields of a type are laid out in documents: those of a saga type after the ones of a
plan, or those of a nested type, without one. -/
inductive LaidOut (nested : List Declaration) :
    Option SagaPlan → Option String → List FieldDeclaration → Layout → Prop
  | nil {plan : Option SagaPlan} {naming : Option String} : LaidOut nested plan naming [] .nil
  | leaf {plan : Option SagaPlan} {naming : Option String} {f : FieldDeclaration}
      {fields : List FieldDeclaration} {s : FieldSettings} {rest : Layout}
      (hs : FieldSettings.read naming f = .ok s) (hp : placeOf plan naming f s = .leaf)
      (h : LaidOut nested (next plan naming f) naming fields rest) :
      LaidOut nested plan naming (f :: fields) (.leaf s.key rest)
  | record {plan : Option SagaPlan} {naming : Option String} {f : FieldDeclaration}
      {fields below : List FieldDeclaration} {s : FieldSettings} {d : Declaration}
      {inner rest : Layout}
      (hs : FieldSettings.read naming f = .ok s) (hp : placeOf plan naming f s = .record)
      (hd : Declaration.find? nested f.type.required.text = some d)
      (hb : d.shape = .record below) (hi : LaidOut nested none d.naming below inner)
      (h : LaidOut nested (next plan naming f) naming fields rest) :
      LaidOut nested plan naming (f :: fields) (.record s.key f.type.isOptional inner rest)
  | unstored {plan : Option SagaPlan} {naming : Option String} {f : FieldDeclaration}
      {fields : List FieldDeclaration} {s : FieldSettings} {rest : Layout}
      (hs : FieldSettings.read naming f = .ok s) (hp : placeOf plan naming f s = .unstored)
      (h : LaidOut nested (next plan naming f) naming fields rest) :
      LaidOut nested plan naming (f :: fields) (.unstored s.key rest)
  | unwritten {plan : Option SagaPlan} {naming : Option String} {f : FieldDeclaration}
      {fields : List FieldDeclaration} {s : FieldSettings} {rest : Layout}
      (hs : FieldSettings.read naming f = .ok s) (hp : placeOf plan naming f s = .unwritten)
      (h : LaidOut nested (next plan naming f) naming fields rest) :
      LaidOut nested plan naming (f :: fields) rest

def Declaration.LaidOutAs (nested : List Declaration) (d : Declaration) (l : Layout) : Prop :=
  ∃ s fields, TypeSettings.read d.settings = .ok s ∧ d.shape = .record fields ∧
    LaidOut nested (some { pieces := s.table.toList.map .table }) d.naming fields l

section
variable {nested : List Declaration} {plan : Option SagaPlan} {naming : Option String}
variable {fields : List FieldDeclaration} {l : Layout}

theorem LaidOut.unique (h : LaidOut nested plan naming fields l) {l' : Layout}
    (h' : LaidOut nested plan naming fields l') : l = l' := by
  -- The settings of a field fix its place, so that no two constructors are for the same fields.
  induction h generalizing l' with
  | nil =>
    cases h' with
    | nil => rfl
  | leaf hs hp h ih =>
    cases h' with
    | leaf hs' _ h' =>
      cases hs.symm.trans hs'
      rw [ih h']
    | record hs' hp' | unstored hs' hp' | unwritten hs' hp' =>
      cases hs.symm.trans hs'
      cases hp.symm.trans hp'
  | record hs hp hd hb hi h ihi ih =>
    cases h' with
    | record hs' _ hd' hb' hi' h' =>
      cases hs.symm.trans hs'
      cases hd.symm.trans hd'
      cases hb.symm.trans hb'
      rw [ihi hi', ih h']
    | leaf hs' hp' | unstored hs' hp' | unwritten hs' hp' =>
      cases hs.symm.trans hs'
      cases hp.symm.trans hp'
  | unstored hs hp h ih =>
    cases h' with
    | unstored hs' _ h' =>
      cases hs.symm.trans hs'
      rw [ih h']
    | leaf hs' hp' | record hs' hp' | unwritten hs' hp' =>
      cases hs.symm.trans hs'
      cases hp.symm.trans hp'
  | unwritten hs hp h ih =>
    cases h' with
    | unwritten _ _ h' => exact ih h'
    | leaf hs' hp' | record hs' hp' | unstored hs' hp' =>
      cases hs.symm.trans hs'
      cases hp.symm.trans hp'

end

/-! ## Nested types -/

section
variable {nested : List Declaration} {naming : Option String} {f : FieldDeclaration}
variable {fields : List FieldDeclaration} {s : FieldSettings} {fs : List Field}
variable {F : String → Except DeclarationFault (List Field)}

theorem resolvePieces_append_eq_ok {first second : List NestedPiece}
    (h : Declaration.resolvePieces F (first ++ second) = .ok fs) :
    ∃ before after, Declaration.resolvePieces F first = .ok before ∧
      Declaration.resolvePieces F second = .ok after ∧ fs = before ++ after := by
  induction first generalizing fs with
  | nil => exact ⟨[], fs, rfl, h, rfl⟩
  | cons piece rest ih =>
    rw [List.cons_append] at h
    cases hrest : Declaration.resolvePieces F (rest ++ second) with
    | error fault =>
      cases piece with
      | field f =>
        rw [Declaration.resolvePieces, hrest] at h
        cases h
      | fieldsOf key type =>
        rw [Declaration.resolvePieces, hrest] at h
        cases hi : F type <;> rw [hi] at h <;> cases h
    | ok others =>
      obtain ⟨before, after, hb, ha, rfl⟩ := ih hrest
      cases piece with
      | field f =>
        rw [Declaration.resolvePieces, hrest] at h
        cases h
        exact ⟨f :: before, after, by rw [Declaration.resolvePieces, hb]; rfl, ha, rfl⟩
      | fieldsOf key type =>
        rw [Declaration.resolvePieces, hrest] at h
        cases hi : F type with
        | error fault =>
          rw [hi] at h
          cases h
        | ok inner =>
          rw [hi] at h
          cases h
          exact ⟨inner.map (Field.under key) ++ before, after, by
            rw [Declaration.resolvePieces, hi, hb]; rfl, ha, (List.append_assoc ..).symm⟩

/-- What is known of the fields of nested types: they are those of a layout. -/
def Lays (nested : List Declaration) (F : String → Except DeclarationFault (List Field)) : Prop :=
  ∀ name fs, F name = .ok fs → ∃ d fields l, Declaration.find? nested name = some d ∧
    d.shape = .record fields ∧ LaidOut nested none d.naming fields l ∧ fs.map (·.path) = l.paths

theorem map_path_under (key : String) (fs : List Field) :
    (fs.map (Field.under key)).map (·.path) = (fs.map (·.path)).map (key ++ "." ++ ·) := by
  rw [List.map_map, List.map_map]
  rfl

theorem LaidOut.cons_nested (hF : Lays nested F) {l : Layout}
    (hl : LaidOut nested none naming fields l) (hs : FieldSettings.read naming f = .ok s)
    {pieces : List NestedPiece} (hp : NestedPiece.ofField f s = .ok pieces)
    (hfs : Declaration.resolvePieces F pieces = .ok fs) :
    ∃ l', LaidOut nested none naming (f :: fields) l' ∧ fs.map (·.path) ++ l.paths = l'.paths := by
  rw [NestedPiece.ofField] at hp
  cases hskip : s.skip with
  | true =>
    rw [if_pos hskip] at hp
    cases hp
    cases hfs
    cases hw : f.isWritten with
    | true => exact ⟨_, .unstored hs (by simp [placeOf, hskip, hw]) hl, rfl⟩
    | false => exact ⟨_, .unwritten hs (by simp [placeOf, hskip, hw]) hl, rfl⟩
  | false =>
    rw [if_neg (ne_true_of_eq_false hskip)] at hp
    split at hp
    next => cases hp
    next =>
      cases hn : s.nesting with
      | none =>
        rw [hn] at hp
        cases hp
        cases hfs
        refine ⟨_, .leaf hs (by simp [placeOf, hskip, hn]) hl, ?_⟩
        rw [Layout.paths_leaf]
        rfl
      | some nesting =>
        cases nesting with
        | plain =>
          rw [hn] at hp
          cases hp
          rw [Declaration.resolvePieces] at hfs
          cases hi : F f.type.required.text with
          | error fault =>
            rw [hi] at hfs
            cases hfs
          | ok inner =>
            rw [hi] at hfs
            cases hfs
            obtain ⟨d, below, li, hd, hb, hlaid, hpaths⟩ := hF _ _ hi
            refine ⟨_, .record hs (by simp [placeOf, hskip, hn, givesRole]) hd hb hlaid hl, ?_⟩
            rw [Layout.paths_record, List.append_nil, map_path_under, hpaths]
        | leafWord =>
          rw [hn] at hp
          cases hp
        | word text =>
          rw [hn] at hp
          cases hp

theorem exists_layout_of_pieces (hF : Lays nested F) {pieces : List (List NestedPiece)}
    (hp : fields.mapM (fun f => do
      NestedPiece.ofField f (← FieldSettings.read naming f)) = .ok pieces)
    (hfs : Declaration.resolvePieces F pieces.flatten = .ok fs) :
    ∃ l, LaidOut nested none naming fields l ∧ fs.map (·.path) = l.paths := by
  induction fields generalizing pieces fs with
  | nil =>
    cases hp
    cases hfs
    exact ⟨.nil, .nil, rfl⟩
  | cons f rest ih =>
    obtain ⟨first, others, hfirst, hothers, rfl⟩ := mapM_cons_eq_ok hp
    rw [List.flatten_cons] at hfs
    obtain ⟨before, after, hbefore, hafter, rfl⟩ := resolvePieces_append_eq_ok hfs
    obtain ⟨l, hl, hpaths⟩ := ih hothers hafter
    cases hs : FieldSettings.read naming f with
    | error fault =>
      rw [hs] at hfirst
      cases hfirst
    | ok s =>
      rw [hs] at hfirst
      obtain ⟨l', hl', hpaths'⟩ := hl.cons_nested hF hs hfirst hbefore
      exact ⟨l', hl', by rw [List.map_append, hpaths, hpaths']⟩

theorem shape_of_namedFields {d : Declaration} (h : d.namedFields = .ok fields) :
    d.shape = .record fields := by
  rw [Declaration.namedFields] at h
  cases hshape : d.shape with
  | record fields' =>
    rw [hshape] at h
    cases h
    rfl
  | tuple | unit | enumeration =>
    rw [hshape] at h
    cases h

theorem ofDeclaration_eq_ok {d : Declaration} {pieces : List NestedPiece}
    (h : NestedPiece.ofDeclaration d = .ok pieces) :
    ∃ fields ps, d.shape = .record fields ∧ fields.mapM (fun f => do
      NestedPiece.ofField f (← FieldSettings.read d.naming f)) = .ok ps ∧ pieces = ps.flatten := by
  rw [NestedPiece.ofDeclaration] at h
  cases hs : TypeSettings.read d.settings with
  | error fault =>
    rw [hs] at h
    cases h
  | ok s =>
    have hnaming : d.naming = s.naming := by rw [Declaration.naming, hs]
    cases hf : d.namedFields with
    | error fault =>
      rw [hs, hf] at h
      cases h
    | ok fields =>
      rw [hs, hf] at h
      obtain ⟨ps, hps, rfl⟩ := exceptMap_eq_ok_iff.mp h
      exact ⟨fields, ps, shape_of_namedFields hf, hnaming ▸ hps, rfl⟩

/-- The fields of a declared type, however deep types are nested in it, are those of its layout. -/
theorem typeFields_lays (nested : List Declaration) (depth : Nat) :
    Lays nested (Declaration.typeFields nested depth) := by
  -- With no depth left nothing is resolved; otherwise the types in a type have one depth less.
  induction depth with
  | zero => exact nofun
  | succ depth ih =>
    intro name fs h
    rw [Declaration.typeFields] at h
    cases hd : Declaration.find? nested name with
    | none =>
      rw [hd] at h
      cases h
    | some d =>
      rw [hd] at h
      cases hp : NestedPiece.ofDeclaration d with
      | error fault =>
        simp only [hp] at h
        cases h
      | ok pieces =>
        simp only [hp] at h
        obtain ⟨fields, ps, hshape, hps, rfl⟩ := ofDeclaration_eq_ok hp
        obtain ⟨l, hl, hpaths⟩ := exists_layout_of_pieces ih hps h
        exact ⟨d, fields, l, rfl, hshape, hl, hpaths⟩

end

/-! ## Saga types -/

namespace Descriptor

def paths (d : Descriptor) : List String :=
  d.fields.map (·.path)

end Descriptor

section
variable {nested : List Declaration} {naming : Option String} {f : FieldDeclaration}
variable {fields : List FieldDeclaration} {s : FieldSettings} {p q : SagaPlan} {d d' : Descriptor}
variable {pieces first second : List SagaPiece}

def applyAll (nested : List Declaration) (pieces : List SagaPiece) (d : Descriptor) :
    Except DeclarationFault Descriptor :=
  pieces.foldlM (SagaPiece.applyTo nested) d

theorem applyAll_append_eq_ok (h : applyAll nested (first ++ second) d = .ok d') :
    ∃ m, applyAll nested first d = .ok m ∧ applyAll nested second m = .ok d' := by
  rw [applyAll, List.foldlM_append] at h
  cases hf : first.foldlM (SagaPiece.applyTo nested) d with
  | error fault =>
    rw [hf] at h
    cases h
  | ok m =>
    rw [hf] at h
    exact ⟨m, hf, h⟩

theorem paths_of_mappings (hm : ∀ piece ∈ pieces, ∃ m, piece = .mapping m)
    (h : applyAll nested pieces d = .ok d') : d'.paths = d.paths := by
  induction pieces generalizing d with
  | nil =>
    cases h
    rfl
  | cons piece rest ih =>
    obtain ⟨⟨m, rfl⟩, hrest⟩ := List.forall_mem_cons.mp hm
    have hpaths := ih hrest (show applyAll nested rest (d.withMapping m) = .ok d' from h)
    exact hpaths

theorem paths_of_piece {piece : SagaPiece} (hm : ∀ piece ∈ pieces, ∃ m, piece = .mapping m)
    (h : applyAll nested (piece :: pieces) d = .ok d') :
    ∃ m, piece.applyTo nested d = .ok m ∧ d'.paths = m.paths := by
  have hsplit : applyAll nested ([piece] ++ pieces) d = .ok d' := h
  obtain ⟨m, hfirst, hrest⟩ := applyAll_append_eq_ok hsplit
  refine ⟨m, ?_, paths_of_mappings hm hrest⟩
  cases hp : piece.applyTo nested d with
  | error fault =>
    rw [applyAll, List.foldlM_cons, hp] at hfirst
    cases hfirst
  | ok m' =>
    rw [applyAll, List.foldlM_cons, hp] at hfirst
    exact hfirst

theorem isMapping_of_mem_columnPieces : ∀ piece ∈ columnPieces s, ∃ m, piece = .mapping m := by
  intro piece hpiece
  obtain ⟨column, -, rfl⟩ := List.mem_map.mp hpiece
  exact ⟨_, rfl⟩

theorem isMapping_of_mem_nestingPieces {key : String} {nesting : Nesting} :
    ∀ piece ∈ nestingPieces key nesting, ∃ m, piece = .mapping m := by
  cases nesting with
  | plain => exact nofun
  | leafWord => simp [nestingPieces]
  | word text => simp [nestingPieces]

/-- A version is added unless it is declared as a field already. -/
theorem paths_withVersion (d : Descriptor) (path : String) :
    (d.withVersion path).paths = d.paths ++ [path] ∨ path ∈ d.paths := by
  by_cases h : d.fields.any (·.path = path) = true
  · exact .inr (by simpa [Descriptor.paths] using h)
  · exact .inl (by simp [Descriptor.paths, Descriptor.withVersion, h])

/-- What a field in front of a layout has to come to: its paths are added before those of the
layout, unless one of them is there already. -/
def InFront (nested : List Declaration) (naming : Option String) (p : SagaPlan)
    (f : FieldDeclaration) (fields : List FieldDeclaration) (l : Layout) (d d' : Descriptor) :
    Prop :=
  ∃ m l', applyAll nested p.pieces d = .ok m ∧ LaidOut nested (some p) naming (f :: fields) l' ∧
    (d'.paths ++ l.paths = m.paths ++ l'.paths ∨ ¬ (m.paths ++ l'.paths).Nodup)

variable {l : Layout} {piece : SagaPiece}

/-- A single value whose piece adds its path, if it is not there. -/
theorem LaidOut.inFront_leaf (hl : LaidOut nested (next (some p) naming f) naming fields l)
    (hs : FieldSettings.read naming f = .ok s) (hp : placeOf (some p) naming f s = .leaf)
    (hq : applyAll nested (p.pieces ++ piece :: columnPieces s) d = .ok d')
    (hpiece : ∀ m m', piece.applyTo nested m = .ok m' →
      m'.paths = m.paths ++ [s.key] ∨ s.key ∈ m.paths) :
    InFront nested naming p f fields l d d' := by
  obtain ⟨m, hm, hadded⟩ := applyAll_append_eq_ok hq
  obtain ⟨m', hm', hpaths⟩ := paths_of_piece isMapping_of_mem_columnPieces hadded
  refine ⟨m, _, hm, .leaf hs hp hl, ?_⟩
  rw [hpaths, Layout.paths_leaf]
  rcases hpiece m m' hm' with hadd | hmem
  · rw [hadd, List.append_assoc]
    exact .inl rfl
  · exact .inr fun hnodup => (List.nodup_append.mp hnodup).2.2 _ hmem _ List.mem_cons_self rfl

theorem LaidOut.inFront_record (hl : LaidOut nested (next (some p) naming f) naming fields l)
    (hs : FieldSettings.read naming f = .ok s) (hp : placeOf (some p) naming f s = .record)
    {nesting : Nesting} (hq : applyAll nested (p.pieces ++
      .fieldsOf s.key f.type.required.text :: nestingPieces s.key nesting) d = .ok d') :
    InFront nested naming p f fields l d d' := by
  obtain ⟨m, hm, hadded⟩ := applyAll_append_eq_ok hq
  obtain ⟨m', hm', hpaths⟩ := paths_of_piece isMapping_of_mem_nestingPieces hadded
  rw [SagaPiece.applyTo] at hm'
  cases hi : Declaration.fieldsOf nested f.type.required.text with
  | error fault =>
    rw [hi] at hm'
    cases hm'
  | ok inner =>
    rw [hi] at hm'
    cases hm'
    obtain ⟨d, below, li, hd, hb, hlaid, hinner⟩ := typeFields_lays nested _ _ _ hi
    refine ⟨m, _, hm, .record hs hp hd hb hlaid hl, .inl ?_⟩
    rw [hpaths, Layout.paths_record, ← hinner, Descriptor.paths, Descriptor.withNested,
      List.map_append, map_path_under, List.append_assoc]
    rfl

/-- A field of a saga type is laid out in front of those after it. -/
theorem LaidOut.inFront (hl : LaidOut nested (some q) naming fields l)
    (h : readField naming p f = .ok q) (hq : applyAll nested q.pieces d = .ok d') :
    InFront nested naming p f fields l d d' := by
  obtain ⟨s, hs⟩ := isReadable_iff.mp (exists_readField_iff.mp ⟨q, h⟩).1
  have hnext : next (some p) naming f = some q := by
    rw [next, Option.bind_some, h]
    rfl
  rw [← hnext] at hl
  rw [readField_eq hs, addField] at h
  -- The places of a field in the order in which they are tried: skipped, key, version, then by its
  -- nesting.
  cases hskip : s.skip with
  | true =>
    rw [if_pos hskip] at h
    cases h
    cases hw : f.isWritten with
    | true => exact ⟨d', _, hq, .unstored hs (by simp [placeOf, hskip, hw]) hl, .inl rfl⟩
    | false => exact ⟨d', _, hq, .unwritten hs (by simp [placeOf, hskip, hw]) hl, .inl rfl⟩
  | false =>
    rw [if_neg (ne_true_of_eq_false hskip)] at h
    split at h
    next hkey =>
      have hplace : placeOf (some p) naming f s = .leaf := by
        simp [placeOf, givesRole, takesKey_eq hs, hskip, hkey]
      split at h
      next => cases h
      next =>
        cases h
        refine hl.inFront_leaf hs hplace hq ?_
        intro m m' hm'
        cases hm'
        exact .inl (by simp [Descriptor.paths, Descriptor.withField, Descriptor.withKey])
    next hkey =>
      have hnokey : p.takesKey naming f = false := by simp [takesKey_eq hs, hskip, hkey]
      split at h
      next hversion =>
        have hplace : placeOf (some p) naming f s = .leaf := by
          simp [placeOf, givesRole, takesVersion_eq hs hnokey, hskip, hversion]
        split at h
        next => cases h
        next =>
          cases h
          refine hl.inFront_leaf hs hplace hq ?_
          intro m m' hm'
          cases hm'
          exact paths_withVersion m s.key
      next hversion =>
        have hnoversion : p.takesVersion naming f = false := by
          simp [takesVersion_eq hs hnokey, hskip, hversion]
        cases hn : s.nesting with
        | none =>
          rw [hn] at h
          cases h
          refine hl.inFront_leaf hs (by simp [placeOf, hskip, hn]) hq ?_
          intro m m' hm'
          cases hm'
          exact .inl (by simp [Descriptor.paths, Descriptor.withField])
        | some nesting =>
          rw [hn] at h
          cases h
          exact hl.inFront_record hs
            (by simp [placeOf, givesRole, hnokey, hnoversion, hskip, hn]) hq

/-- The paths of a saga type are those of its layout, or these are not distinct. -/
theorem exists_layout_of_readFields (h : readFields naming p fields = .ok q)
    (hq : applyAll nested q.pieces d = .ok d') :
    ∃ m l, applyAll nested p.pieces d = .ok m ∧ LaidOut nested (some p) naming fields l ∧
      (d'.paths = m.paths ++ l.paths ∨ ¬ (m.paths ++ l.paths).Nodup) := by
  -- The plan grows from the first field on, the layout from the last: what the pieces of the plan
  -- so far come to is part of the induction.
  induction fields generalizing p with
  | nil =>
    cases h
    exact ⟨d', .nil, hq, .nil, .inl (List.append_nil _).symm⟩
  | cons f rest ih =>
    obtain ⟨r, hfirst, hrest⟩ := readFields_cons_eq_ok_iff.mp h
    obtain ⟨n, l, hn, hl, hpaths⟩ := ih hrest
    obtain ⟨m, l', hm, hl', hfront⟩ := hl.inFront hfirst hn
    refine ⟨m, l', hm, hl', ?_⟩
    rcases hfront with hfront | hfront
    · rw [← hfront]
      exact hpaths
    · exact .inr hfront

end

namespace Declaration

variable {nested : List Declaration} {d : Declaration} {derived : Derived}

theorem ofDeclaration_eq_planOf {p : SagaPlan} (h : SagaPlan.ofDeclaration d = .ok p) :
    ∃ fields, d.shape = .record fields ∧ d.planOf fields = .ok p := by
  cases hf : d.namedFields with
  | error fault =>
    rw [SagaPlan.ofDeclaration, hf] at h
    cases hs : TypeSettings.read d.settings <;> rw [hs] at h <;> cases h
  | ok fields =>
    have hshape := shape_of_namedFields hf
    refine ⟨fields, hshape, ?_⟩
    rw [planOf, ← hshape]
    exact h

theorem derive_eq_ok (h : derive nested d = .ok derived) :
    ∃ p, SagaPlan.ofDeclaration d = .ok p ∧
      applyAll nested p.pieces { typeName := d.name } = .ok derived.descriptor := by
  rw [derive] at h
  cases hp : SagaPlan.ofDeclaration d with
  | error fault =>
    rw [hp] at h
    cases h
  | ok p =>
    rw [hp] at h
    obtain ⟨descriptor, hdescriptor, rfl⟩ := exceptMap_eq_ok_iff.mp h
    exact ⟨p, rfl, hdescriptor⟩

/-- A saga type from which a descriptor is derived has a layout, whose paths are those of the
descriptor unless one of them is there twice. -/
theorem exists_layout_of_derive (h : derive nested d = .ok derived) :
    ∃ l, d.LaidOutAs nested l ∧ (derived.descriptor.paths = l.paths ∨ ¬ l.paths.Nodup) := by
  obtain ⟨p, hp, happlied⟩ := derive_eq_ok h
  obtain ⟨fields, hshape, hplan⟩ := ofDeclaration_eq_planOf hp
  obtain ⟨s, hs, hread, -⟩ := planOf_eq_ok_iff.mp hplan
  obtain ⟨m, l, hm, hl, hpaths⟩ := exists_layout_of_readFields hread happlied
  have hm : m.paths = [] := by
    cases ht : s.table with
    | none =>
      rw [ht] at hm
      cases hm
      rfl
    | some table =>
      rw [ht] at hm
      cases hm
      rfl
  rw [hm, List.nil_append] at hpaths
  exact ⟨l, ⟨s, fields, hs, hshape, hl⟩, hpaths⟩

theorem LaidOutAs.unique {l l' : Layout} (h : d.LaidOutAs nested l) (h' : d.LaidOutAs nested l') :
    l = l' := by
  obtain ⟨s, fields, hs, hshape, hl⟩ := h
  obtain ⟨s', fields', hs', hshape', hl'⟩ := h'
  cases hs.symm.trans hs'
  cases hshape.symm.trans hshape'
  exact hl.unique hl'

/-- A derived descriptor has one path for each stored value, in order, where these are distinct.
They find the values if and only if every field with stored values is written under a name without
dots that no later field of its type has. -/
theorem derived_paths_find_values_iff (h : derive nested d = .ok derived) :
    ∃ l, d.LaidOutAs nested l ∧ (∀ l', d.LaidOutAs nested l' → l' = l) ∧
      (l.paths.Nodup → derived.descriptor.fields.map (·.path) = l.paths) ∧
      (l.FoundAt (derived.descriptor.fields.map (·.path)) ↔ l.Clear) := by
  obtain ⟨l, hl, hpaths⟩ := exists_layout_of_derive h
  exact ⟨l, hl, fun l' hl' => hl'.unique hl, hpaths.resolve_right ∘ not_not_intro,
    Layout.foundAt_iff hpaths⟩

/-- The fields of an address have those of a point in them. -/
def address : Declaration where
  name := "Address"
  shape := .record [markedField "city" "String" [], markedField "at" "Point" ["flatten"]]
  settings := []

def point : Declaration where
  name := "Point"
  shape := .record [markedField "x" "f64" [], markedField "y" "f64" []]
  settings := []

/-- A delivery, whose destination may be missing. -/
def delivery : Declaration where
  name := "Delivery"
  shape := .record [markedField "correlation_id" "Uuid" [],
    { markedField "destination" "Address" ["flatten"] with
      type := .path [] "Option".toList [.arguments [.type (.path [] "Address".toList [])] false] },
    markedField "draft" "String" ["skip"], markedField "note" "String" []]
  settings := []

def deliveryLayout : Layout :=
  .leaf "correlation_id" (.record "destination" true
    (.leaf "city" (.record "at" false (.leaf "x" (.leaf "y" .nil)) .nil))
    (.unstored "draft" (.leaf "note" .nil)))

theorem delivery_paths_find_values :
    ∃ derived, derive [address, point] delivery = .ok derived ∧
      derived.descriptor.fields.map (·.path) =
        ["correlation_id", "destination.city", "destination.at.x", "destination.at.y", "note"] ∧
      delivery.LaidOutAs [address, point] deliveryLayout ∧
      deliveryLayout.FoundAt (derived.descriptor.fields.map (·.path)) := by
  obtain ⟨_, hlaid, rfl⟩ : ∃ l, delivery.LaidOutAs [address, point] l ∧ l = deliveryLayout :=
    ⟨_, ⟨_, _, rfl, rfl, .leaf rfl rfl (.record rfl rfl rfl rfl
      (.leaf rfl rfl (.record rfl rfl rfl rfl (.leaf rfl rfl (.leaf rfl rfl .nil)) .nil))
      (.unstored rfl rfl (.leaf rfl rfl .nil)))⟩, rfl⟩
  have hderived : ∃ derived, derive [address, point] delivery = .ok derived ∧
      derived.descriptor.fields.map (·.path) =
        ["correlation_id", "destination.city", "destination.at.x", "destination.at.y", "note"] :=
    ⟨_, rfl, by decide⟩
  obtain ⟨derived, hderived, hpaths⟩ := hderived
  obtain ⟨l, -, hunique, -, hfound⟩ := derived_paths_find_values_iff hderived
  cases hunique _ hlaid
  refine ⟨derived, hderived, hpaths, hlaid, hfound.mpr ?_⟩
  simp [deliveryLayout, Layout.Clear, Layout.keys]

/-- A contact has a field that is written under a name with a dot in it. -/
def contact : Declaration where
  name := "Contact"
  shape := .record [markedField "correlation_id" "Uuid" [],
    { markedField "full_name" "String" [] with
      settings := [.group "serde" [.value "rename" (.string "full.name")]] }]
  settings := []

/-- The name of a contact is not found at the path that is derived for it, and is put at another
place. -/
theorem contact_path_misses_name :
    ∃ derived l, derive [] contact = .ok derived ∧ contact.LaidOutAs [] l ∧
      derived.descriptor.fields.map (·.path) = ["correlation_id", "full.name"] ∧
      l.ways = [["correlation_id"], ["full.name"]] ∧
      ∀ id name : Json, l.Written [("correlation_id", id), ("full.name", name)]
          [some id, some name] ∧
        Json.lookup (.object (Members.collect [("correlation_id", id), ("full.name", name)]))
          "full.name" = none ∧
        Members.insertPath [("correlation_id", id)] "full.name" name =
          [("correlation_id", id), ("full", .object [("name", name)])] :=
  ⟨_, _, rfl, ⟨_, _, rfl, rfl, .leaf rfl rfl (.leaf rfl rfl .nil)⟩, by decide, rfl,
    fun id name => ⟨.leaf id (.leaf name .nil), rfl, rfl⟩⟩

end Declaration

end Sagas
