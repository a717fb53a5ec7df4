import Sagas.Declaration.Derivation

/-! Which fields of a declaration become the key and the version as the fields are read one after
the other. -/
namespace Sagas

/-- What no step of a fold changes is as before after all of them. -/
theorem foldlM_invariant {α β ε : Type} {P : β → Prop} {step : β → α → Except ε β} {as : List α}
    {b b' : β} (hstep : ∀ a ∈ as, ∀ b b', step b a = .ok b' → P b → P b')
    (h : as.foldlM step b = .ok b') (hb : P b) : P b' := by
  induction as generalizing b with
  | nil =>
    cases h
    exact hb
  | cons a as ih =>
    obtain ⟨hfirst, hrest⟩ := List.forall_mem_cons.mp hstep
    rw [List.foldlM_cons] at h
    cases hs : step b a with
    | error fault =>
      rw [hs] at h
      cases h
    | ok next =>
      rw [hs] at h
      exact ih hrest h (hfirst b next hs hb)

/-! ## Claims -/

namespace FieldDeclaration

section
variable (naming : Option String) (f : FieldDeclaration)

/-- Whether a field is stored and its settings are of a kind. One whose settings cannot be read is
not. -/
def isStoredWith (kind : FieldSettings → Bool) : Bool :=
  match FieldSettings.read naming f with
  | .ok s => !s.skip && kind s
  | .error _ => false

def isReadable : Bool :=
  match FieldSettings.read naming f with
  | .ok _ => true
  | .error _ => false

def isKeyMarked : Bool :=
  f.isStoredWith naming (·.correlationId)

/-- A field that is marked as both is marked as the key. -/
def isVersionMarked : Bool :=
  f.isStoredWith naming fun s => !s.correlationId && s.version

/-- Whether a field is to be the key by its mark or its name. -/
def claimsKey : Bool :=
  f.isStoredWith naming fun s => s.correlationId || f.name = "correlation_id"

/-- Whether a field is to be the version by its mark or its name. -/
def claimsVersion : Bool :=
  f.isStoredWith naming fun s => !s.correlationId && (s.version || f.name = "version")

end

section
variable {naming : Option String} {f : FieldDeclaration}

theorem isStoredWith_eq_true_iff {kind : FieldSettings → Bool} :
    f.isStoredWith naming kind = true ↔
      ∃ s, FieldSettings.read naming f = .ok s ∧ s.skip = false ∧ kind s = true := by
  rw [isStoredWith]
  cases FieldSettings.read naming f <;> simp

theorem isStoredWith_mono {kind kind' : FieldSettings → Bool}
    (hkind : ∀ s, kind s = true → kind' s = true) (h : f.isStoredWith naming kind = true) :
    f.isStoredWith naming kind' = true := by
  obtain ⟨s, hs, hskip, hk⟩ := isStoredWith_eq_true_iff.mp h
  exact isStoredWith_eq_true_iff.mpr ⟨s, hs, hskip, hkind s hk⟩

theorem claimsKey_of_isKeyMarked (h : f.isKeyMarked naming = true) :
    f.claimsKey naming = true :=
  isStoredWith_mono (fun _ hs => by simp [hs]) h

theorem claimsVersion_of_isVersionMarked (h : f.isVersionMarked naming = true) :
    f.claimsVersion naming = true :=
  isStoredWith_mono (fun _ hs => by simp_all) h

theorem isKeyMarked_or_name_of_claimsKey (h : f.claimsKey naming = true) :
    f.isKeyMarked naming = true ∨ f.name = "correlation_id" := by
  obtain ⟨s, hs, hskip, hclaim⟩ := isStoredWith_eq_true_iff.mp h
  rcases (Bool.or_eq_true ..).mp hclaim with hmark | hname
  · exact .inl (isStoredWith_eq_true_iff.mpr ⟨s, hs, hskip, hmark⟩)
  · exact .inr (of_decide_eq_true hname)

theorem isVersionMarked_or_name_of_claimsVersion (h : f.claimsVersion naming = true) :
    f.isVersionMarked naming = true ∨ f.name = "version" := by
  obtain ⟨s, hs, hskip, hclaim⟩ := isStoredWith_eq_true_iff.mp h
  obtain ⟨hkey, hclaim⟩ := (Bool.and_eq_true ..).mp hclaim
  rcases (Bool.or_eq_true ..).mp hclaim with hmark | hname
  · exact .inl (isStoredWith_eq_true_iff.mpr ⟨s, hs, hskip, by rw [hkey, hmark]; rfl⟩)
  · exact .inr (of_decide_eq_true hname)

theorem claimsVersion_eq_false_of_isKeyMarked (h : f.isKeyMarked naming = true) :
    f.claimsVersion naming = false := by
  obtain ⟨s, hs, -, hmark⟩ := isStoredWith_eq_true_iff.mp h
  rw [claimsVersion, isStoredWith, hs]
  simp [hmark]

/-- A field can only claim both roles by the name of one and the mark of the other. -/
theorem isVersionMarked_of_claims (hk : f.claimsKey naming = true)
    (hv : f.claimsVersion naming = true) : f.isVersionMarked naming = true := by
  rcases isKeyMarked_or_name_of_claimsKey hk with hmark | hname
  · exact absurd hv (ne_true_of_eq_false (claimsVersion_eq_false_of_isKeyMarked hmark))
  · refine (isVersionMarked_or_name_of_claimsVersion hv).resolve_right ?_
    rw [hname]
    decide

end

end FieldDeclaration

/-! ## One field -/

namespace SagaPlan

open FieldDeclaration

/-- Reads the settings of a field and adds it. -/
def readField (naming : Option String) (p : SagaPlan) (f : FieldDeclaration) :
    Except DeclarationFault SagaPlan := do
  addField p f (← FieldSettings.read naming f)

section
variable (naming : Option String) (p : SagaPlan) (f : FieldDeclaration)

/-- Whether a field asks to be the key after the fields of a plan. -/
def takesKey : Bool :=
  f.isKeyMarked naming || (p.keyField.isNone && f.claimsKey naming)

/-- Whether a field asks to be the version after the fields of a plan. -/
def takesVersion : Bool :=
  !p.takesKey naming f &&
    (f.isVersionMarked naming || (p.versionField.isNone && f.claimsVersion naming))

end

section
variable {naming : Option String} {p p' : SagaPlan} {f : FieldDeclaration}

theorem claimsKey_of_takesKey (h : p.takesKey naming f = true) : f.claimsKey naming = true := by
  rcases (Bool.or_eq_true ..).mp h with hmark | hclaim
  · exact claimsKey_of_isKeyMarked hmark
  · exact ((Bool.and_eq_true ..).mp hclaim).2

theorem claimsVersion_of_takesVersion (h : p.takesVersion naming f = true) :
    f.claimsVersion naming = true := by
  rcases (Bool.or_eq_true ..).mp ((Bool.and_eq_true ..).mp h).2 with hmark | hclaim
  · exact claimsVersion_of_isVersionMarked hmark
  · exact ((Bool.and_eq_true ..).mp hclaim).2

theorem takesKey_eq {s : FieldSettings} (hs : FieldSettings.read naming f = .ok s) :
    p.takesKey naming f =
      (!s.skip && (s.correlationId || (p.keyField.isNone && f.name = "correlation_id"))) := by
  simp only [takesKey, isKeyMarked, claimsKey, isStoredWith, hs]
  cases s.skip <;> cases s.correlationId <;> simp

theorem takesVersion_eq {s : FieldSettings} (hs : FieldSettings.read naming f = .ok s)
    (h : p.takesKey naming f = false) : p.takesVersion naming f =
      (!s.skip && (s.version || (p.versionField.isNone && f.name = "version"))) := by
  rw [takesKey_eq hs] at h
  simp only [takesVersion, takesKey_eq hs, h, isVersionMarked, claimsVersion, isStoredWith, hs]
  cases hskip : s.skip <;> cases hkey : s.correlationId <;> cases s.version <;> simp_all

theorem addField_of_takesKey {s : FieldSettings} (hs : FieldSettings.read naming f = .ok s)
    (h : p.takesKey naming f = true) : addField p f s =
      if p.keyField.isSome then .error .secondKey
      else .ok { p.add (.key s.key :: columnPieces s) with keyField := some f.name } := by
  rw [takesKey_eq hs, Bool.and_eq_true, Bool.not_eq_true'] at h
  rw [addField, if_neg (ne_true_of_eq_false h.1), if_pos h.2]

theorem addField_of_takesVersion {s : FieldSettings} (hs : FieldSettings.read naming f = .ok s)
    (h : p.takesVersion naming f = true) : addField p f s =
      if p.versionField.isSome then .error .secondVersion
      else .ok { p.add (.version s.key :: columnPieces s) with versionField := some f } := by
  have hkey : p.takesKey naming f = false := by
    simpa using ((Bool.and_eq_true ..).mp h).1
  rw [takesVersion_eq hs hkey, Bool.and_eq_true, Bool.not_eq_true'] at h
  rw [takesKey_eq hs, h.1, Bool.not_false, Bool.true_and] at hkey
  rw [addField, if_neg (ne_true_of_eq_false h.1), if_neg (ne_true_of_eq_false hkey), if_pos h.2]

theorem addField_of_neither {s : FieldSettings} (hs : FieldSettings.read naming f = .ok s)
    (hk : p.takesKey naming f = false) (hv : p.takesVersion naming f = false) :
    ∃ pieces, addField p f s = .ok (p.add pieces) := by
  rw [takesVersion_eq hs hk] at hv
  rw [takesKey_eq hs] at hk
  rw [addField]
  cases hskip : s.skip with
  | true => exact ⟨[], by rw [if_pos rfl, add, List.append_nil]⟩
  | false =>
    rw [hskip, Bool.not_false, Bool.true_and] at hk hv
    rw [if_neg Bool.false_ne_true, if_neg (ne_true_of_eq_false hk),
      if_neg (ne_true_of_eq_false hv)]
    cases s.nesting with
    | some nesting => exact ⟨_, rfl⟩
    | none => exact ⟨_, rfl⟩

/-- A field asks to be the key, asks to be the version, or asks for neither. -/
theorem addField_cases (p : SagaPlan) {s : FieldSettings}
    (hs : FieldSettings.read naming f = .ok s) :
    (p.takesKey naming f = true ∧ p.takesVersion naming f = false ∧ addField p f s =
      if p.keyField.isSome then .error .secondKey
      else .ok { p.add (.key s.key :: columnPieces s) with keyField := some f.name }) ∨
    (p.takesKey naming f = false ∧ p.takesVersion naming f = true ∧ addField p f s =
      if p.versionField.isSome then .error .secondVersion
      else .ok { p.add (.version s.key :: columnPieces s) with versionField := some f }) ∨
    (p.takesKey naming f = false ∧ p.takesVersion naming f = false ∧
      ∃ pieces, addField p f s = .ok (p.add pieces)) := by
  cases hk : p.takesKey naming f with
  | true => exact .inl ⟨rfl, by rw [takesVersion, hk]; rfl, addField_of_takesKey hs hk⟩
  | false =>
    cases hv : p.takesVersion naming f with
    | true => exact .inr (.inl ⟨rfl, rfl, addField_of_takesVersion hs hv⟩)
    | false => exact .inr (.inr ⟨rfl, rfl, addField_of_neither hs hk hv⟩)

theorem readField_eq {s : FieldSettings} (hs : FieldSettings.read naming f = .ok s) :
    readField naming p f = addField p f s := by
  rw [readField, hs]
  rfl

theorem isReadable_iff : f.isReadable naming = true ↔ ∃ s, FieldSettings.read naming f = .ok s := by
  rw [isReadable]
  cases FieldSettings.read naming f <;> simp

/-- A field can be added exactly if its settings are read and no role that it asks for is taken. -/
theorem exists_readField_iff : (∃ p', readField naming p f = .ok p') ↔
    f.isReadable naming = true ∧ (p.takesKey naming f = true → p.keyField = none) ∧
      (p.takesVersion naming f = true → p.versionField = none) := by
  cases hs : FieldSettings.read naming f with
  | error fault => simp [readField, isReadable, hs, bind, Except.bind]
  | ok s =>
    rw [readField_eq hs, isReadable_iff, and_iff_right ⟨s, hs⟩]
    rcases addField_cases p hs with ⟨hk, hv, hadd⟩ | ⟨hk, hv, hadd⟩ | ⟨hk, hv, pieces, hadd⟩
    · rw [hadd, hk, hv]
      cases p.keyField <;> simp
    · rw [hadd, hk, hv]
      cases p.versionField <;> simp
    · rw [hadd, hk, hv]
      simp

/-- A field that is added has the roles that it asks for, and all else is as before. -/
theorem roles_of_readField (h : readField naming p f = .ok p') :
    p'.keyField = (if p.takesKey naming f then some f.name else p.keyField) ∧
      p'.versionField = (if p.takesVersion naming f then some f else p.versionField) := by
  obtain ⟨hr, hk, hv⟩ := exists_readField_iff.mp ⟨p', h⟩
  obtain ⟨s, hs⟩ := isReadable_iff.mp hr
  rw [readField_eq hs] at h
  rcases addField_cases p hs with ⟨hkey, hversion, hadd⟩ | ⟨hkey, hversion, hadd⟩ |
    ⟨hkey, hversion, pieces, hadd⟩
  · rw [hadd, hk hkey] at h
    cases h
    rw [hkey, hversion]
    exact ⟨rfl, rfl⟩
  · rw [hadd, hv hversion] at h
    cases h
    rw [hkey, hversion]
    exact ⟨rfl, rfl⟩
  · rw [hadd] at h
    cases h
    rw [hkey, hversion]
    exact ⟨rfl, rfl⟩

end

/-! ## All fields -/

/-- Reads and adds fields one after the other. -/
def readFields (naming : Option String) (p : SagaPlan) (fields : List FieldDeclaration) :
    Except DeclarationFault SagaPlan :=
  fields.foldlM (readField naming) p

section
variable {naming : Option String} {p p' : SagaPlan} {f : FieldDeclaration}
  {fields : List FieldDeclaration}

theorem readFields_cons_eq_ok_iff : readFields naming p (f :: fields) = .ok p' ↔
    ∃ q, readField naming p f = .ok q ∧ readFields naming q fields = .ok p' := by
  rw [readFields, List.foldlM_cons]
  cases hf : readField naming p f with
  | error fault => exact ⟨nofun, nofun⟩
  | ok q =>
    constructor
    · intro h
      exact ⟨q, rfl, h⟩
    · rintro ⟨_, heq, h⟩
      cases heq
      exact h

/-- What no field of a list changes is as before after all of them. -/
theorem readFields_invariant {P : SagaPlan → Prop}
    (hstep : ∀ f ∈ fields, ∀ q q', readField naming q f = .ok q' → P q → P q')
    (h : readFields naming p fields = .ok p') (hp : P p) : P p' :=
  foldlM_invariant hstep h hp

theorem isReadable_of_readFields (h : readFields naming p fields = .ok p') :
    ∀ f ∈ fields, f.isReadable naming = true := by
  induction fields generalizing p with
  | nil => exact nofun
  | cons f rest ih =>
    obtain ⟨q, hfirst, hrest⟩ := readFields_cons_eq_ok_iff.mp h
    exact List.forall_mem_cons.mpr ⟨(exists_readField_iff.mp ⟨q, hfirst⟩).1, ih hrest⟩

theorem keyField_of_unclaimed (hc : ∀ f ∈ fields, f.claimsKey naming = false)
    (h : readFields naming p fields = .ok p') : p'.keyField = p.keyField := by
  refine readFields_invariant (P := fun q => q.keyField = p.keyField) ?_ h rfl
  intro f hf q q' hq hkept
  have hno : ¬ q.takesKey naming f = true := fun ht =>
    ne_true_of_eq_false (hc f hf) (claimsKey_of_takesKey ht)
  rw [(roles_of_readField hq).1, if_neg hno, hkept]

theorem versionField_of_unclaimed (hc : ∀ f ∈ fields, f.claimsVersion naming = false)
    (h : readFields naming p fields = .ok p') : p'.versionField = p.versionField := by
  refine readFields_invariant (P := fun q => q.versionField = p.versionField) ?_ h rfl
  intro f hf q q' hq hkept
  have hno : ¬ q.takesVersion naming f = true := fun ht =>
    ne_true_of_eq_false (hc f hf) (claimsVersion_of_takesVersion ht)
  rw [(roles_of_readField hq).2, if_neg hno, hkept]

/-- The version is one of the fields, or was there before. -/
theorem versionField_of_readFields (h : readFields naming p fields = .ok p') :
    p'.versionField = p.versionField ∨ ∃ f ∈ fields, p'.versionField = some f := by
  refine readFields_invariant
    (P := fun q => q.versionField = p.versionField ∨ ∃ f ∈ fields, q.versionField = some f)
    ?_ h (.inl rfl)
  intro f hf q q' hq hbefore
  rw [(roles_of_readField hq).2]
  split
  next => exact .inr ⟨f, hf, rfl⟩
  next => exact hbefore

theorem takesKey_of_claimsKey (hk : p.keyField = none) (hc : f.claimsKey naming = true) :
    p.takesKey naming f = true := by
  rw [takesKey, hk, hc, Option.isNone_none, Bool.and_self, Bool.or_true]

theorem keyField_isSome_of_readField (h : readField naming p f = .ok p')
    (hc : p.keyField.isSome = true ∨ f.claimsKey naming = true) : p'.keyField.isSome = true := by
  rw [(roles_of_readField h).1]
  split
  next => rfl
  next hno =>
    rcases hc with hc | hc
    · exact hc
    · rw [Option.isSome_iff_ne_none]
      exact fun hk => hno (takesKey_of_claimsKey hk hc)

theorem keyField_isSome_of_claimed (h : readFields naming p fields = .ok p')
    (hc : ∃ f ∈ fields, f.claimsKey naming = true) : p'.keyField.isSome = true := by
  obtain ⟨f, hf, hclaim⟩ := hc
  induction fields generalizing p with
  | nil => exact nomatch hf
  | cons g rest ih =>
    obtain ⟨q, hfirst, hrest⟩ := readFields_cons_eq_ok_iff.mp h
    rcases List.mem_cons.mp hf with rfl | hf
    · have hq : q.keyField.isSome = true := keyField_isSome_of_readField hfirst (.inr hclaim)
      exact readFields_invariant (P := fun q => q.keyField.isSome = true)
        (fun _ _ _ _ hg hsome => keyField_isSome_of_readField hg (.inl hsome)) hrest hq
    · exact ih hrest hf

theorem exists_readFields_cons (hfirst : ∃ q, readField naming p f = .ok q)
    (hrest : ∀ q, readField naming p f = .ok q → ∃ p', readFields naming q fields = .ok p') :
    ∃ p', readFields naming p (f :: fields) = .ok p' := by
  obtain ⟨q, hq⟩ := hfirst
  obtain ⟨p', hp'⟩ := hrest q hq
  exact ⟨p', readFields_cons_eq_ok_iff.mpr ⟨q, hq, hp'⟩⟩

end

/-! ## Uncontested roles -/

/-- Whether each role is claimed by at most one field, and no field claims both. -/
structure Uncontested (naming : Option String) (fields : List FieldDeclaration) : Prop where
  key : fields.countP (·.claimsKey naming) ≤ 1
  version : fields.countP (·.claimsVersion naming) ≤ 1
  apart : ∀ f ∈ fields, f.claimsKey naming = true → f.claimsVersion naming = false

/-- Whether the roles that fields claim are uncontested, by what has them in a plan as well. -/
structure Vacant (naming : Option String) (p : SagaPlan) (fields : List FieldDeclaration) :
    Prop where
  key : p.keyField.toList.length + fields.countP (·.claimsKey naming) ≤ 1
  version : p.versionField.toList.length + fields.countP (·.claimsVersion naming) ≤ 1
  apart : ∀ f ∈ fields, f.claimsKey naming = true → f.claimsVersion naming = false

section
variable {naming : Option String} {p p' : SagaPlan} {f : FieldDeclaration}
  {fields : List FieldDeclaration} {α : Type} {held : Option α}
  {claims : FieldDeclaration → Bool}

theorem eq_none_of_claims (h : held.toList.length + (f :: fields).countP claims ≤ 1)
    (hc : claims f = true) : held = none := by
  rw [List.countP_cons_of_pos hc] at h
  cases held with
  | none => rfl
  | some a =>
    rw [Option.toList_some, List.length_singleton] at h
    omega

theorem unclaimed_of_claims (h : held.toList.length + (f :: fields).countP claims ≤ 1)
    (hc : claims f = true) : ∀ g ∈ fields, claims g = false := by
  rw [List.countP_cons_of_pos hc] at h
  intro g hg
  have hnone : fields.countP claims = 0 := by omega
  exact eq_false_of_ne_true (List.countP_eq_zero.mp hnone g hg)

theorem length_add_countP_le {takes : Bool} {a : α} (ht : takes = true → claims f = true)
    (h : held.toList.length + (f :: fields).countP claims ≤ 1) :
    (if takes then some a else held).toList.length + fields.countP claims ≤ 1 := by
  cases takes with
  | true =>
    rw [List.countP_cons_of_pos (ht rfl)] at h
    rw [if_pos rfl, Option.toList_some, List.length_singleton]
    omega
  | false =>
    rw [List.countP_cons] at h
    rw [if_neg Bool.false_ne_true]
    omega

theorem Vacant.tail (h : Vacant naming p (f :: fields)) (hq : readField naming p f = .ok p') :
    Vacant naming p' fields := by
  obtain ⟨hkey, hversion⟩ := roles_of_readField hq
  constructor
  · rw [hkey]
    exact length_add_countP_le claimsKey_of_takesKey h.key
  · rw [hversion]
    exact length_add_countP_le claimsVersion_of_takesVersion h.version
  · exact fun g hg => h.apart g (List.mem_cons_of_mem _ hg)

theorem Vacant.exists_readFields (h : Vacant naming p fields)
    (hr : ∀ f ∈ fields, f.isReadable naming = true) :
    ∃ p', readFields naming p fields = .ok p' := by
  induction fields generalizing p with
  | nil => exact ⟨p, rfl⟩
  | cons f rest ih =>
    obtain ⟨hf, hr⟩ := List.forall_mem_cons.mp hr
    have hfree : (p.takesKey naming f = true → p.keyField = none) ∧
        (p.takesVersion naming f = true → p.versionField = none) :=
      ⟨fun ht => eq_none_of_claims h.key (claimsKey_of_takesKey ht),
        fun ht => eq_none_of_claims h.version (claimsVersion_of_takesVersion ht)⟩
    exact exists_readFields_cons (exists_readField_iff.mpr ⟨hf, hfree⟩)
      fun q hq => ih (h.tail hq) hr

theorem takesVersion_of_claimsVersion (hk : f.claimsKey naming = false)
    (hv : p.versionField = none) (hc : f.claimsVersion naming = true) :
    p.takesVersion naming f = true := by
  have hno : p.takesKey naming f = false :=
    eq_false_of_ne_true fun ht => ne_true_of_eq_false hk (claimsKey_of_takesKey ht)
  rw [takesVersion, hno, hv, hc, Option.isNone_none, Bool.and_self, Bool.or_true, Bool.not_false,
    Bool.and_self]

/-- The fields that claim roles get them. -/
theorem Vacant.roles (h : Vacant naming p fields) (hp : readFields naming p fields = .ok p') :
    ∀ f ∈ fields, (f.claimsKey naming = true → p'.keyField = some f.name) ∧
      (f.claimsVersion naming = true → p'.versionField = some f) := by
  induction fields generalizing p with
  | nil => exact nofun
  | cons f rest ih =>
    obtain ⟨q, hfirst, hrest⟩ := readFields_cons_eq_ok_iff.mp hp
    obtain ⟨hkey, hversion⟩ := roles_of_readField hfirst
    -- What the first field gets it keeps, since no field of the rest claims it.
    refine List.forall_mem_cons.mpr ⟨⟨fun hc => ?_, fun hc => ?_⟩, ih (h.tail hfirst) hrest⟩
    · have hfree : p.keyField = none := eq_none_of_claims h.key hc
      rw [keyField_of_unclaimed (unclaimed_of_claims h.key hc) hrest, hkey,
        if_pos (takesKey_of_claimsKey hfree hc)]
    · have hfree : p.versionField = none := eq_none_of_claims h.version hc
      have hnokey : f.claimsKey naming = false := eq_false_of_ne_true fun hk =>
        ne_true_of_eq_false (h.apart f List.mem_cons_self hk) hc
      rw [versionField_of_unclaimed (unclaimed_of_claims h.version hc) hrest, hversion,
        if_pos (takesVersion_of_claimsVersion hnokey hfree hc)]

theorem Uncontested.vacant (h : Uncontested naming fields) (pieces : List SagaPiece) :
    Vacant naming { pieces } fields :=
  ⟨by simpa using h.key, by simpa using h.version, h.apart⟩

theorem Uncontested.perm {fields' : List FieldDeclaration} (h : Uncontested naming fields)
    (hp : fields'.Perm fields) : Uncontested naming fields' :=
  ⟨hp.countP_eq _ ▸ h.key, hp.countP_eq _ ▸ h.version, fun f hf => h.apart f (hp.mem_iff.mp hf)⟩

end

end SagaPlan

end Sagas
