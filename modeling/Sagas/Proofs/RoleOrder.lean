import Mathlib.Data.List.Nodup
import Sagas.Proofs.FieldRoles

/-! When the fields of a declaration have the same roles in whatever order they are declared. -/
namespace Sagas

/-! ## Other orders of a list -/

section
variable {α : Type} {xs : List α} {x : α}

theorem exists_cons_perm_of_mem (h : x ∈ xs) : ∃ rest, (x :: rest).Perm xs := by
  obtain ⟨before, after, rfl⟩ := List.append_of_mem h
  exact ⟨_, List.perm_middle.symm⟩

/-- A list with at most one element of a kind has none, or has it first in another order. -/
theorem exists_perm_cons_of_countP {kind : α → Bool} (h : xs.countP kind ≤ 1) :
    (∀ x ∈ xs, kind x = false) ∨
      ∃ x rest, (x :: rest).Perm xs ∧ kind x = true ∧ ∀ y ∈ rest, kind y = false := by
  by_cases hex : ∃ x ∈ xs, kind x = true
  · obtain ⟨x, hx, hkind⟩ := hex
    obtain ⟨rest, hperm⟩ := exists_cons_perm_of_mem hx
    rw [← hperm.countP_eq kind, List.countP_cons_of_pos hkind] at h
    have hnone : rest.countP kind = 0 := by omega
    exact .inr ⟨x, _, hperm, hkind, fun y hy =>
      eq_false_of_ne_true (List.countP_eq_zero.mp hnone y hy)⟩
  · exact .inl fun x hx => eq_false_of_ne_true fun hkind => hex ⟨x, hx, hkind⟩

end

namespace SagaPlan

open FieldDeclaration

/-! ## Orders of fields -/

section
variable {naming : Option String} {p p' : SagaPlan} {f c m : FieldDeclaration}
  {fields rest : List FieldDeclaration}

theorem keyField_of_takesKey_unmarked (hm : f.isKeyMarked naming = false)
    (ht : p.takesKey naming f = true) : p.keyField = none := by
  rw [takesKey, hm, Bool.false_or, Bool.and_eq_true] at ht
  exact Option.isNone_iff_eq_none.mp ht.1

theorem versionField_of_takesVersion_unmarked (hm : f.isVersionMarked naming = false)
    (ht : p.takesVersion naming f = true) : p.versionField = none := by
  rw [takesVersion, hm, Bool.false_or, Bool.and_eq_true, Bool.and_eq_true] at ht
  exact Option.isNone_iff_eq_none.mp ht.2.1

/-- Fields without marks are never refused. -/
theorem exists_readFields_of_unmarked (hr : ∀ f ∈ fields, f.isReadable naming = true)
    (hk : ∀ f ∈ fields, f.isKeyMarked naming = false)
    (hv : ∀ f ∈ fields, f.isVersionMarked naming = false) :
    ∃ p', readFields naming p fields = .ok p' := by
  induction fields generalizing p with
  | nil => exact ⟨p, rfl⟩
  | cons f rest ih =>
    rw [List.forall_mem_cons] at hr hk hv
    have hfirst : ∃ q, readField naming p f = .ok q :=
      exists_readField_iff.mpr ⟨hr.1, keyField_of_takesKey_unmarked hk.1,
        versionField_of_takesVersion_unmarked hv.1⟩
    exact exists_readFields_cons hfirst fun q _ => ih hr.2 hk.2 hv.2

/-- Without a mark for the key, fields are accepted with the one marked as the version first. -/
theorem exists_order_of_keyless_marks (hr : ∀ f ∈ fields, f.isReadable naming = true)
    (hk : ∀ f ∈ fields, f.isKeyMarked naming = false)
    (hv : fields.countP (·.isVersionMarked naming) ≤ 1) :
    ∃ order, order.Perm fields ∧
      ∀ p, p.versionField = none → ∃ p', readFields naming p order = .ok p' := by
  rcases exists_perm_cons_of_countP hv with hv | ⟨m, rest, hperm, -, hv⟩
  · exact ⟨fields, .refl _, fun p _ => exists_readFields_of_unmarked hr hk hv⟩
  · have hr : ∀ f ∈ m :: rest, f.isReadable naming = true := fun f hf => hr f (hperm.subset hf)
    have hk : ∀ f ∈ m :: rest, f.isKeyMarked naming = false := fun f hf => hk f (hperm.subset hf)
    rw [List.forall_mem_cons] at hr hk
    refine ⟨m :: rest, hperm, fun p hp => ?_⟩
    have hfirst : ∃ q, readField naming p m = .ok q :=
      exists_readField_iff.mpr ⟨hr.1, keyField_of_takesKey_unmarked hk.1, fun _ => hp⟩
    exact exists_readFields_cons hfirst fun q _ => exists_readFields_of_unmarked hr.2 hk.2 hv

/-- Fields are accepted in an order with the marked ones first, the key before the version. -/
theorem exists_accepted_order (hr : ∀ f ∈ fields, f.isReadable naming = true)
    (hk : fields.countP (·.isKeyMarked naming) ≤ 1)
    (hv : fields.countP (·.isVersionMarked naming) ≤ 1) :
    ∃ order, order.Perm fields ∧ ∀ pieces, ∃ p', readFields naming { pieces } order = .ok p' := by
  rcases exists_perm_cons_of_countP hk with hk | ⟨m, rest, hperm, hm, hk⟩
  · obtain ⟨order, horder, haccepted⟩ := exists_order_of_keyless_marks hr hk hv
    exact ⟨order, horder, fun pieces => haccepted _ rfl⟩
  · have hr : ∀ f ∈ m :: rest, f.isReadable naming = true := fun f hf => hr f (hperm.subset hf)
    rw [List.forall_mem_cons] at hr
    rw [← hperm.countP_eq] at hv
    have hv : rest.countP (·.isVersionMarked naming) ≤ 1 :=
      Nat.le_trans ((List.sublist_cons_self m rest).countP_le) hv
    obtain ⟨order, horder, haccepted⟩ := exists_order_of_keyless_marks hr.2 hk hv
    refine ⟨m :: order, (horder.cons m).trans hperm, fun pieces => ?_⟩
    have hfirst : ∃ q, readField naming { pieces } m = .ok q :=
      exists_readField_iff.mpr ⟨hr.1, fun _ => rfl, fun _ => rfl⟩
    refine exists_readFields_cons hfirst fun q hq => haccepted q ?_
    have hno : ¬ takesVersion naming { pieces } m = true := fun ht =>
      ne_true_of_eq_false (claimsVersion_eq_false_of_isKeyMarked hm)
        (claimsVersion_of_takesVersion ht)
    rw [(roles_of_readField hq).2, if_neg hno]

/-- A field marked as the key is refused right after another that claims to be it. -/
theorem readFields_ne_ok_of_keys (hc : c.claimsKey naming = true)
    (hm : m.isKeyMarked naming = true) : readFields naming p (c :: m :: rest) ≠ .ok p' := by
  intro h
  obtain ⟨q, hfirst, h⟩ := readFields_cons_eq_ok_iff.mp h
  obtain ⟨q', hsecond, -⟩ := readFields_cons_eq_ok_iff.mp h
  have htaken : q.keyField.isSome = true := keyField_isSome_of_readField hfirst (.inr hc)
  have hfree : q.keyField = none := (exists_readField_iff.mp ⟨q', hsecond⟩).2.1 <| by
    rw [takesKey, hm, Bool.true_or]
  rw [hfree] at htaken
  cases htaken

/-- A field marked as the version is refused right after another that claims to be it, if neither
can be the key. -/
theorem readFields_ne_ok_of_versions (hc : c.claimsVersion naming = true)
    (hck : c.claimsKey naming = false) (hm : m.isVersionMarked naming = true)
    (hmk : m.claimsKey naming = false) :
    readFields naming p (c :: m :: rest) ≠ .ok p' := by
  intro h
  obtain ⟨q, hfirst, h⟩ := readFields_cons_eq_ok_iff.mp h
  obtain ⟨q', hsecond, -⟩ := readFields_cons_eq_ok_iff.mp h
  have hnokey : q.takesKey naming m = false :=
    eq_false_of_ne_true fun ht => ne_true_of_eq_false hmk (claimsKey_of_takesKey ht)
  have hfree : q.versionField = none := (exists_readField_iff.mp ⟨q', hsecond⟩).2.2 <| by
    rw [takesVersion, hnokey, hm, Bool.true_or, Bool.not_false, Bool.and_self]
  rw [(roles_of_readField hfirst).2] at hfree
  split at hfree
  next => cases hfree
  next hno => exact hno (takesVersion_of_claimsVersion hck hfree hc)

/-- A field that claims to be the key is the key when it comes first, and so not the version. -/
theorem versionField_ne_of_key_first {pieces : List SagaPiece} (hc : f.claimsKey naming = true)
    (hf : f ∉ rest) (h : readFields naming { pieces } (f :: rest) = .ok p') :
    p'.versionField ≠ some f := by
  obtain ⟨q, hfirst, hrest⟩ := readFields_cons_eq_ok_iff.mp h
  have hkey : takesKey naming { pieces } f = true := takesKey_of_claimsKey rfl hc
  have hq : q.versionField = none := by
    rw [(roles_of_readField hfirst).2, takesVersion, hkey]
    rfl
  rcases versionField_of_readFields hrest with hkept | ⟨g, hg, hgot⟩
  · rw [hkept, hq]
    exact (Option.some_ne_none f).symm
  · rw [hgot]
    exact fun heq => hf (Option.some.inj heq ▸ hg)

/-- Of two fields that claim a role one is marked, since they have different names. -/
theorem exists_contest {claims marked : FieldDeclaration → Bool} {name : String}
    (hname : ∀ f, claims f = true → marked f = true ∨ f.name = name)
    (hn : (fields.map (·.name)).Nodup) (h : ¬ fields.countP claims ≤ 1) :
    ∃ c m rest, (c :: m :: rest).Perm fields ∧ claims c = true ∧ claims m = true ∧
      marked m = true := by
  obtain ⟨a, ha, hclaim⟩ := List.countP_pos_iff.mp (show 0 < fields.countP claims by omega)
  obtain ⟨others, hperm⟩ := exists_cons_perm_of_mem ha
  rw [← hperm.countP_eq, List.countP_cons_of_pos hclaim] at h
  obtain ⟨b, hb, hclaim'⟩ := List.countP_pos_iff.mp (show 0 < others.countP claims by omega)
  obtain ⟨rest, hothers⟩ := exists_cons_perm_of_mem hb
  have hpair : (a :: b :: rest).Perm fields := (hothers.cons a).trans hperm
  rcases hname a hclaim with hmark | hnamed
  · exact ⟨b, a, _, (List.Perm.swap a b _).trans hpair, hclaim', hclaim, hmark⟩
  · rcases hname b hclaim' with hmark | hnamed'
    · exact ⟨a, b, _, hpair, hclaim, hclaim', hmark⟩
    · have hdistinct := (hpair.map (·.name)).nodup_iff.mpr hn
      rw [List.map_cons, List.map_cons, hnamed, hnamed', List.nodup_cons] at hdistinct
      exact absurd List.mem_cons_self hdistinct.1

end

end SagaPlan

/-! ## Declarations -/

namespace Declaration

open SagaPlan

/-- The rule by which the fields of a declaration are named. -/
def naming (d : Declaration) : Option String :=
  match TypeSettings.read d.settings with
  | .ok s => s.naming
  | .error _ => none

/-- The plan of a declaration with its fields in the given order. -/
def planOf (d : Declaration) (fields : List FieldDeclaration) :
    Except DeclarationFault SagaPlan :=
  SagaPlan.ofDeclaration { d with shape := .record fields }

/-- Whether the settings of a declaration and of its fields can be read. -/
def IsReadable (d : Declaration) (fields : List FieldDeclaration) : Prop :=
  (∃ s, TypeSettings.read d.settings = .ok s) ∧ ∀ f ∈ fields, f.isReadable d.naming = true

/-- Whether the order of the fields does not matter to their roles: all orders are accepted or none
is, the same fields have the roles in all, and fields that are marked have theirs. -/
structure RolesKept (d : Declaration) (fields : List FieldDeclaration) : Prop where
  accepted : ∀ fields', fields'.Perm fields →
    ((∃ p, d.planOf fields' = .ok p) ↔ ∃ p, d.planOf fields = .ok p)
  same : ∀ fields' p p', fields'.Perm fields → d.planOf fields = .ok p →
    d.planOf fields' = .ok p' → p'.keyField = p.keyField ∧ p'.versionField = p.versionField
  marked : ∀ fields' p', fields'.Perm fields → d.planOf fields' = .ok p' → ∀ f ∈ fields,
    (f.isKeyMarked d.naming = true → p'.keyField = some f.name) ∧
      (f.isVersionMarked d.naming = true → p'.versionField = some f)

section
variable {d : Declaration} {fields fields' : List FieldDeclaration} {p : SagaPlan}

/-- The last check of a plan is that it has a key. -/
theorem checkKey_eq_ok_iff {q : SagaPlan} :
    (do
      if q.keyField.isNone then throw .noKey
      return q : Except DeclarationFault SagaPlan) = .ok p ↔ q = p ∧ p.keyField.isSome = true := by
  obtain ⟨pieces, key, version⟩ := q
  cases key with
  | none =>
    refine ⟨nofun, ?_⟩
    rintro ⟨rfl, hsome⟩
    cases hsome
  | some key =>
    constructor
    · intro h
      cases h
      exact ⟨rfl, rfl⟩
    · rintro ⟨rfl, -⟩
      rfl

/-- A plan is made if all settings are read, every field is accepted, and one is the key. -/
theorem planOf_eq_ok_iff : d.planOf fields = .ok p ↔
    ∃ s, TypeSettings.read d.settings = .ok s ∧
      readFields d.naming { pieces := s.table.toList.map .table } fields = .ok p ∧
        p.keyField.isSome = true := by
  cases hs : TypeSettings.read d.settings with
  | error fault =>
    rw [planOf, SagaPlan.ofDeclaration, hs]
    exact ⟨nofun, nofun⟩
  | ok s =>
    have hplan : d.planOf fields = (do
        let q ← readFields d.naming { pieces := s.table.toList.map .table } fields
        if q.keyField.isNone then throw .noKey
        return q) := by
      rw [planOf, SagaPlan.ofDeclaration, naming, hs]
      rfl
    rw [hplan]
    cases hrun : readFields d.naming { pieces := s.table.toList.map .table } fields with
    | error fault =>
      refine ⟨nofun, ?_⟩
      rintro ⟨_, hs', hrun', -⟩
      cases hs'
      rw [hrun] at hrun'
      cases hrun'
    | ok q =>
      refine checkKey_eq_ok_iff.trans ⟨?_, ?_⟩
      · rintro ⟨rfl, hsome⟩
        exact ⟨s, rfl, hrun, hsome⟩
      · rintro ⟨_, hs', hrun', hsome⟩
        cases hs'
        rw [hrun] at hrun'
        cases hrun'
        exact ⟨rfl, hsome⟩

theorem isReadable_of_planOf (h : d.planOf fields = .ok p) : d.IsReadable fields := by
  obtain ⟨s, hs, hrun, -⟩ := planOf_eq_ok_iff.mp h
  exact ⟨⟨s, hs⟩, isReadable_of_readFields hrun⟩

theorem IsReadable.perm (h : d.IsReadable fields) (hp : fields'.Perm fields) :
    d.IsReadable fields' :=
  ⟨h.1, fun f hf => h.2 f (hp.mem_iff.mp hf)⟩

theorem exists_claimsKey_of_planOf (h : d.planOf fields = .ok p) :
    ∃ f ∈ fields, f.claimsKey d.naming = true := by
  by_contra hno
  obtain ⟨s, -, hrun, hsome⟩ := planOf_eq_ok_iff.mp h
  have hunclaimed : ∀ f ∈ fields, f.claimsKey d.naming = false := fun f hf =>
    eq_false_of_ne_true fun hc => hno ⟨f, hf, hc⟩
  rw [keyField_of_unclaimed hunclaimed hrun] at hsome
  cases hsome

/-- Uncontested roles are given in every order, to the fields that claim them. -/
theorem exists_planOf_of_uncontested (hr : d.IsReadable fields)
    (hu : Uncontested d.naming fields) (hc : ∃ f ∈ fields, f.claimsKey d.naming = true) :
    ∃ p, d.planOf fields = .ok p := by
  obtain ⟨⟨s, hs⟩, hfields⟩ := hr
  obtain ⟨p, hrun⟩ := (hu.vacant (s.table.toList.map .table)).exists_readFields hfields
  exact ⟨p, planOf_eq_ok_iff.mpr ⟨s, hs, hrun, keyField_isSome_of_claimed hrun hc⟩⟩

theorem roles_of_uncontested (hu : Uncontested d.naming fields) (h : d.planOf fields = .ok p) :
    (∀ f ∈ fields, (f.claimsKey d.naming = true → p.keyField = some f.name) ∧
      (f.claimsVersion d.naming = true → p.versionField = some f)) ∧
    ((∀ f ∈ fields, f.claimsVersion d.naming = false) → p.versionField = none) := by
  obtain ⟨s, -, hrun, -⟩ := planOf_eq_ok_iff.mp h
  exact ⟨(hu.vacant _).roles hrun, fun hno => versionField_of_unclaimed hno hrun⟩

theorem rolesKept_of_refused (h : ∀ order, order.Perm fields → ∀ p, d.planOf order ≠ .ok p) :
    d.RolesKept fields where
  accepted order hp := ⟨fun ⟨p, hplan⟩ => absurd hplan (h order hp p),
    fun ⟨p, hplan⟩ => absurd hplan (h fields (.refl _) p)⟩
  same order _ p' hp _ hplan := absurd hplan (h order hp p')
  marked order p' hp hplan := absurd hplan (h order hp p')

theorem rolesKept_of_uncontested (hr : d.IsReadable fields)
    (hu : Uncontested d.naming fields) (hc : ∃ f ∈ fields, f.claimsKey d.naming = true) :
    d.RolesKept fields where
  accepted order hp := by
    obtain ⟨f, hf, hclaim⟩ := hc
    exact iff_of_true
      (exists_planOf_of_uncontested (hr.perm hp) (hu.perm hp) ⟨f, hp.mem_iff.mpr hf, hclaim⟩)
      (exists_planOf_of_uncontested hr hu ⟨f, hf, hclaim⟩)
  same order p p' hp hplan hplan' := by
    obtain ⟨hroles, hnone⟩ := roles_of_uncontested hu hplan
    obtain ⟨hroles', hnone'⟩ := roles_of_uncontested (hu.perm hp) hplan'
    constructor
    · obtain ⟨f, hf, hclaim⟩ := hc
      rw [(hroles f hf).1 hclaim, (hroles' f (hp.mem_iff.mpr hf)).1 hclaim]
    · by_cases hversion : ∃ f ∈ fields, f.claimsVersion d.naming = true
      · obtain ⟨f, hf, hclaim⟩ := hversion
        rw [(hroles f hf).2 hclaim, (hroles' f (hp.mem_iff.mpr hf)).2 hclaim]
      · have hno : ∀ f ∈ fields, f.claimsVersion d.naming = false := fun f hf =>
          eq_false_of_ne_true fun hclaim => hversion ⟨f, hf, hclaim⟩
        rw [hnone hno, hnone' fun f hf => hno f (hp.mem_iff.mp hf)]
  marked order p' hp hplan f hf := by
    obtain ⟨hkey, hversion⟩ := (roles_of_uncontested (hu.perm hp) hplan).1 f (hp.mem_iff.mpr hf)
    exact ⟨fun hm => hkey (FieldDeclaration.claimsKey_of_isKeyMarked hm),
      fun hm => hversion (FieldDeclaration.claimsVersion_of_isVersionMarked hm)⟩

section
variable (hn : (fields.map (·.name)).Nodup) (hk : fields.countP (·.isKeyMarked d.naming) ≤ 1)
  (hv : fields.countP (·.isVersionMarked d.naming) ≤ 1)
include hk hv

/-- If roles do not depend on the order, every order is accepted. -/
theorem RolesKept.exists_planOf (h : d.RolesKept fields) (hr : d.IsReadable fields)
    (hc : ∃ f ∈ fields, f.claimsKey d.naming = true) {order : List FieldDeclaration}
    (hp : order.Perm fields) : ∃ p, d.planOf order = .ok p := by
  obtain ⟨⟨s, hs⟩, hfields⟩ := hr
  obtain ⟨first, hfirst, haccepted⟩ := exists_accepted_order hfields hk hv
  obtain ⟨p, hrun⟩ := haccepted (s.table.toList.map .table)
  obtain ⟨f, hf, hclaim⟩ := hc
  have hsome : p.keyField.isSome = true :=
    keyField_isSome_of_claimed hrun ⟨f, hfirst.mem_iff.mpr hf, hclaim⟩
  have hplan : d.planOf first = .ok p := planOf_eq_ok_iff.mpr ⟨s, hs, hrun, hsome⟩
  exact (h.accepted order hp).mpr ((h.accepted first hfirst).mp ⟨p, hplan⟩)

include hn

theorem RolesKept.uncontested (h : d.RolesKept fields) (hr : d.IsReadable fields)
    (hc : ∃ f ∈ fields, f.claimsKey d.naming = true) : Uncontested d.naming fields := by
  have haccepted : ∀ order, order.Perm fields → ∃ pieces p,
      readFields d.naming { pieces } order = .ok p := by
    intro order hp
    obtain ⟨p, hplan⟩ := h.exists_planOf hk hv hr hc hp
    obtain ⟨s, -, hrun, -⟩ := planOf_eq_ok_iff.mp hplan
    exact ⟨_, p, hrun⟩
  have hkey : fields.countP (·.claimsKey d.naming) ≤ 1 := by
    by_contra hmany
    obtain ⟨c, m, rest, hperm, hclaim, -, hmark⟩ :=
      exists_contest (fun _ => FieldDeclaration.isKeyMarked_or_name_of_claimsKey) hn hmany
    obtain ⟨pieces, p, hrun⟩ := haccepted _ hperm
    exact readFields_ne_ok_of_keys hclaim hmark hrun
  have hapart : ∀ f ∈ fields, f.claimsKey d.naming = true → f.claimsVersion d.naming = false := by
    refine fun f hf hclaim => eq_false_of_ne_true fun hclaim' => ?_
    have hmark : f.isVersionMarked d.naming = true :=
      FieldDeclaration.isVersionMarked_of_claims hclaim hclaim'
    -- With the field first it is the key, so nothing comes of its mark as the version.
    obtain ⟨rest, hperm⟩ := exists_cons_perm_of_mem hf
    have hother : f ∉ rest := (hperm.nodup_iff.mpr hn.of_map).notMem
    obtain ⟨p, hplan⟩ := h.exists_planOf hk hv hr hc hperm
    obtain ⟨s, -, hrun, -⟩ := planOf_eq_ok_iff.mp hplan
    exact versionField_ne_of_key_first hclaim hother hrun
      ((h.marked _ p hperm hplan f hf).2 hmark)
  refine ⟨hkey, ?_, hapart⟩
  by_contra hmany
  obtain ⟨c, m, rest, hperm, hclaim, hclaim', hmark⟩ :=
    exists_contest (fun _ => FieldDeclaration.isVersionMarked_or_name_of_claimsVersion) hn hmany
  have hnokey : ∀ f ∈ fields, f.claimsVersion d.naming = true → f.claimsKey d.naming = false :=
    fun f hf hversion => eq_false_of_ne_true fun hkey =>
      ne_true_of_eq_false (hapart f hf hkey) hversion
  obtain ⟨pieces, p, hrun⟩ := haccepted _ hperm
  exact readFields_ne_ok_of_versions hclaim (hnokey c (hperm.subset List.mem_cons_self) hclaim)
    hmark (hnokey m (hperm.subset (by simp)) hclaim') hrun

end

/-- With different names, and at most one mark for each role, the order of the fields does not
matter exactly if the settings cannot all be read, no field claims to be the key, or the roles are
uncontested. In the last case every order is accepted, and the fields that claim roles get them. -/
theorem roles_kept_iff (d : Declaration) (fields : List FieldDeclaration)
    (hn : (fields.map (·.name)).Nodup) (hk : fields.countP (·.isKeyMarked d.naming) ≤ 1)
    (hv : fields.countP (·.isVersionMarked d.naming) ≤ 1) :
    (d.RolesKept fields ↔ (d.IsReadable fields → (∃ f ∈ fields, f.claimsKey d.naming = true) →
      Uncontested d.naming fields)) ∧
    (d.IsReadable fields → (∃ f ∈ fields, f.claimsKey d.naming = true) →
      Uncontested d.naming fields → ∀ order, order.Perm fields → ∃ p, d.planOf order = .ok p ∧
        ∀ f ∈ fields, (f.claimsKey d.naming = true → p.keyField = some f.name) ∧
          (f.claimsVersion d.naming = true → p.versionField = some f)) := by
  constructor
  · constructor
    · exact fun h hr hc => h.uncontested hn hk hv hr hc
    · intro h
      by_cases hr : d.IsReadable fields
      · by_cases hc : ∃ f ∈ fields, f.claimsKey d.naming = true
        · exact rolesKept_of_uncontested hr (h hr hc) hc
        · refine rolesKept_of_refused fun order hp p hplan => hc ?_
          obtain ⟨f, hf, hclaim⟩ := exists_claimsKey_of_planOf hplan
          exact ⟨f, hp.mem_iff.mp hf, hclaim⟩
      · exact rolesKept_of_refused fun order hp p hplan =>
          hr ((isReadable_of_planOf hplan).perm hp.symm)
  · rintro hr ⟨f, hf, hclaim⟩ hu order hp
    obtain ⟨p, hplan⟩ :=
      exists_planOf_of_uncontested (hr.perm hp) (hu.perm hp) ⟨f, hp.mem_iff.mpr hf, hclaim⟩
    exact ⟨p, hplan, fun g hg => (roles_of_uncontested (hu.perm hp) hplan).1 g (hp.mem_iff.mpr hg)⟩

end

/-- A field of a type that is named by one word, marked under `saga` with further words. -/
def markedField (name type : String) (marks : List String) : FieldDeclaration where
  name := name
  type := .path [] type.toList []
  settings := if marks.isEmpty then [] else [.group "saga" (marks.map .flag)]

/-- The fields of a parcel: the key is marked, and the version has the name for it. -/
def parcelFields : List FieldDeclaration :=
  [markedField "weight" "i32" [], markedField "version" "i32" [],
    markedField "parcel_id" "Uuid" ["correlation_id"]]

def parcel : Declaration where
  name := "Parcel"
  shape := .record parcelFields
  settings := []

theorem parcel_roles_in_any_order :
    parcel.RolesKept parcelFields ∧ ∀ order, order.Perm parcelFields →
      ∃ p, parcel.planOf order = .ok p ∧ p.keyField = some "parcel_id" ∧
        p.versionField = some (markedField "version" "i32" []) := by
  have hreadable : parcel.IsReadable parcelFields := ⟨⟨_, rfl⟩, by decide⟩
  have hclaimed : ∃ f ∈ parcelFields, f.claimsKey parcel.naming = true := by decide
  have huncontested : Uncontested parcel.naming parcelFields :=
    ⟨by decide, by decide, by decide⟩
  obtain ⟨hkept, hroles⟩ := roles_kept_iff parcel parcelFields (by decide) (by decide) (by decide)
  refine ⟨hkept.mpr fun _ _ => huncontested, fun order hp => ?_⟩
  obtain ⟨p, hplan, hgiven⟩ := hroles hreadable hclaimed huncontested order hp
  rw [parcelFields, List.forall_mem_cons, List.forall_mem_cons, List.forall_mem_cons] at hgiven
  obtain ⟨-, hversion, hkey, -⟩ := hgiven
  exact ⟨p, hplan, hkey.1 (by decide), hversion.2 (by decide)⟩

/-- The fields of an account: one has the name for keys, and the next is marked as the key. -/
def accountFields : List FieldDeclaration :=
  [markedField "correlation_id" "Uuid" [], markedField "id" "Uuid" ["correlation_id"]]

def account : Declaration where
  name := "Account"
  shape := .record accountFields
  settings := []

/-- The fields of an account are refused as they are, and accepted in the opposite order. -/
theorem account_roles_by_order :
    (accountFields.map (·.name)).Nodup ∧
      accountFields.countP (·.isKeyMarked account.naming) = 1 ∧
        accountFields.countP (·.isVersionMarked account.naming) = 0 ∧
          account.planOf accountFields = .error .secondKey ∧
            (∃ p, account.planOf accountFields.reverse = .ok p ∧ p.keyField = some "id") ∧
              ¬ account.RolesKept accountFields := by
  have hrefused : account.planOf accountFields = .error .secondKey := rfl
  have haccepted : ∃ p, account.planOf accountFields.reverse = .ok p ∧ p.keyField = some "id" :=
    ⟨_, rfl, rfl⟩
  refine ⟨by decide, by decide, by decide, hrefused, haccepted, fun hkept => ?_⟩
  obtain ⟨p, hplan, -⟩ := haccepted
  obtain ⟨p', hplan'⟩ := (hkept.accepted _ (List.reverse_perm _)).mp ⟨p, hplan⟩
  rw [hrefused] at hplan'
  cases hplan'

end Declaration

end Sagas
