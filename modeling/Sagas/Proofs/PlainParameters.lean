import Sagas.Proofs.DerivedPaths
import Sagas.Proofs.NameCharacters
import Sagas.Proofs.Plan

/-! When the parameters of derived saga types have plain names. -/
namespace Sagas

/-! ## Plain names -/

def isWordChar (c : Char) : Bool :=
  c.isAlphanum || c = '_'

/-- A name that is read as one word in SQL. -/
structure IsPlainName (name : String) : Prop where
  ne_empty : name ≠ ""
  characters : name.toList.all isWordChar = true

namespace FieldDeclaration

/-- The name of a field in the code, without the mark of a raw name. -/
def identifier (f : FieldDeclaration) : String :=
  String.ofList (FieldSettings.plainName f.name.toList)

/-- Whether a field has settings that rename it for documents. -/
def isRenamed (f : FieldDeclaration) : Bool :=
  f.settings.any fun
    | .group "serde" items => items.any (·.name = "rename")
    | _ => false

/-- Whether the name of a field is in ASCII and has a letter, and documents have no other one. -/
def isPlain (f : FieldDeclaration) : Bool :=
  f.identifier.toList.all isWordChar && f.identifier.toList.any Char.isAlpha && !f.isRenamed

end FieldDeclaration

/-- Whether the fields of a declaration have plain names. -/
def Declaration.IsPlain (d : Declaration) : Prop :=
  ∀ fields, d.shape = .record fields → ∀ f ∈ fields, f.isPlain = true

theorem isWordChar_iff {c : Char} : isWordChar c = true ↔ c.isAlphanum ∨ c = '_' := by
  simp [isWordChar]

theorem FieldDeclaration.isPlain_iff {f : FieldDeclaration} : f.isPlain = true ↔
    (∀ c ∈ f.identifier.toList, isWordChar c = true) ∧ (∃ c ∈ f.identifier.toList, c.isAlpha) ∧
      f.isRenamed = false := by
  simp [isPlain, and_assoc]

/-! ## Ways -/

/-- A field with the rule that its type names it by. -/
structure NamedField where
  naming : Option String
  field : FieldDeclaration

namespace NamedField

/-- The name of a field that is not renamed. -/
def key (n : NamedField) : String :=
  NamingRule.applyNamed n.naming n.field.identifier

/-- Whether the name has dashes in it. -/
def IsDashed (n : NamedField) : Prop :=
  '_' ∈ n.field.identifier.toList ∧
    NamingRule.underscoreAs (n.naming.bind NamingRule.ofName?) = some '-'

def pathOf (way : List NamedField) : String :=
  ".".intercalate (way.map key)

end NamedField

/-- The ways from a type to its fields and, as their types are among the nested ones, into these. -/
inductive Declaration.Leads (nested : List Declaration) : Declaration → List NamedField → Prop
  | field {d : Declaration} {fields : List FieldDeclaration} {f : FieldDeclaration}
      (hd : d.shape = .record fields) (hf : f ∈ fields) : Leads nested d [⟨d.naming, f⟩]
  | within {d inner : Declaration} {fields : List FieldDeclaration} {f : FieldDeclaration}
      {way : List NamedField} (hd : d.shape = .record fields) (hf : f ∈ fields)
      (hi : Declaration.find? nested f.type.required.text = some inner)
      (h : Leads nested inner way) : Leads nested d (⟨d.naming, f⟩ :: way)

theorem Declaration.mem_of_find? {nested : List Declaration} {name : String} {d : Declaration}
    (h : find? nested name = some d) : d ∈ nested :=
  List.mem_reverse.mp (List.mem_of_find?_eq_some h)

theorem Declaration.Leads.exists_cons {nested : List Declaration} {d : Declaration}
    {way : List NamedField} (h : d.Leads nested way) : ∃ first rest, way = first :: rest := by
  cases h <;> exact ⟨_, _, rfl⟩

/-! ## Names without renaming -/

namespace FieldSettings

theorem eq_of_bare {α : Type} {a b : α} {setting : Setting} (h : setting.bare a = .ok b) :
    a = b := by
  cases setting <;> cases h
  rfl

section
variable {s s' : FieldSettings}

theorem key_of_readSaga {setting : Setting} (h : readSaga s setting = .ok s') :
    s'.key = s.key := by
  rw [readSaga.eq_def] at h
  split at h
  case h_1 | h_2 | h_3 | h_4 | h_6 => exact (congrArg key (eq_of_bare h)).symm
  case h_5 =>
    obtain ⟨-, -, rfl⟩ := exceptMap_eq_ok_iff.mp h
    rfl
  case h_7 =>
    split at h
    next =>
      obtain ⟨-, -, rfl⟩ := exceptMap_eq_ok_iff.mp h
      rfl
    next => exact (congrArg key (eq_of_bare h)).symm
  case h_8 => cases h

theorem key_of_readSerde {setting : Setting} {rest : List Setting} (hn : setting.name ≠ "rename")
    (h : readSerde s setting rest = .ok s') : s'.key = s.key := by
  rw [readSerde.eq_def, if_neg hn] at h
  split at h
  next => rw [← eq_of_bare h]
  next =>
    obtain ⟨-, -, rfl⟩ := exceptMap_eq_ok_iff.mp h
    rfl

theorem key_of_foldItems {items : List Setting} (hn : ∀ item ∈ items, item.name ≠ "rename")
    (h : Setting.foldItems readSerde s items = .ok s') : s'.key = s.key := by
  induction items generalizing s with
  | nil =>
    cases h
    rfl
  | cons item rest ih =>
    obtain ⟨hitem, hrest⟩ := List.forall_mem_cons.mp hn
    rw [Setting.foldItems] at h
    cases hs : readSerde s item rest with
    | error fault =>
      rw [hs] at h
      cases h
    | ok next =>
      rw [hs] at h
      rw [ih hrest h, key_of_readSerde hitem hs]

theorem key_of_read {naming : Option String} {f : FieldDeclaration} (hf : f.isPlain = true)
    (h : read naming f = .ok s) : s.key = NamedField.key ⟨naming, f⟩ := by
  refine foldlM_invariant (P := fun t => t.key = NamedField.key ⟨naming, f⟩) ?_ h rfl
  intro heading hmem t t' ht hkey
  have hitems : ∀ fold : List Setting → Except DeclarationFault FieldSettings,
      (do fold (← heading.items)) = .ok t' →
        ∃ name items, heading = .group name items ∧ fold items = .ok t' := by
    intro fold hfold
    cases heading with
    | group name items => exact ⟨name, items, rfl, hfold⟩
    | flag name | value name literal => cases hfold
  rw [readHeading] at ht
  split at ht
  next hserde =>
    obtain ⟨name, items, rfl, hfold⟩ := hitems _ ht
    obtain rfl : name = "serde" := hserde
    have hplain := List.any_eq_false.mp (FieldDeclaration.isPlain_iff.mp hf).2.2 _ hmem
    refine (key_of_foldItems (fun item hitem hname => hplain ?_) hfold).trans hkey
    exact List.any_eq_true.mpr ⟨item, hitem, decide_eq_true hname⟩
  next =>
    split at ht
    next =>
      obtain ⟨name, items, rfl, hfold⟩ := hitems _ ht
      exact foldlM_invariant (P := fun u => u.key = NamedField.key ⟨naming, f⟩)
        (fun _ _ _ _ hstep hbefore => (key_of_readSaga hstep).trans hbefore) hfold hkey
    next =>
      cases ht
      exact hkey

end

end FieldSettings

/-! ## Ways to the fields of a descriptor -/

section
variable {nested : List Declaration} {d : Declaration}

/-- A way of a layout is that of fields, if none of them is renamed. -/
theorem LaidOut.exists_leads {plan : Option SagaPlan} {naming : Option String}
    {fields : List FieldDeclaration} {l : Layout} (h : LaidOut nested plan naming fields l)
    (hn : ∀ e ∈ nested, e.IsPlain) (hd : d.IsPlain) {all : List FieldDeclaration}
    (hshape : d.shape = .record all) (hsub : fields ⊆ all) (hnaming : naming = d.naming)
    {names : List String} (hnames : names ∈ l.ways) :
    ∃ way, d.Leads nested way ∧ way.map NamedField.key = names := by
  induction h generalizing d all names with
  | nil => cases hnames
  | @leaf plan naming f fields s rest hs hp h ih =>
    subst hnaming
    obtain ⟨hf, hsub⟩ := List.cons_subset.mp hsub
    rcases List.mem_cons.mp hnames with rfl | hnames
    · refine ⟨[⟨d.naming, f⟩], .field hshape hf, ?_⟩
      rw [FieldSettings.key_of_read (hd _ hshape _ hf) hs]
      rfl
    · exact ih hd hshape hsub rfl hnames
  | @record plan naming f fields below s e inner rest hs hp he hb hi h ihi ih =>
    subst hnaming
    obtain ⟨hf, hsub⟩ := List.cons_subset.mp hsub
    rcases List.mem_append.mp hnames with hnames | hnames
    · obtain ⟨names, hinner, rfl⟩ := List.mem_map.mp hnames
      have hplain := hn e (Declaration.mem_of_find? he)
      obtain ⟨way, hway, rfl⟩ := ihi hplain hb (List.Subset.refl _) rfl hinner
      refine ⟨⟨d.naming, f⟩ :: way, .within hshape hf he hway, ?_⟩
      rw [FieldSettings.key_of_read (hd _ hshape _ hf) hs, List.map_cons]
    · exact ih hd hshape hsub rfl hnames
  | unstored hs hp h ih | unwritten hs hp h ih =>
    exact ih hd hshape (List.cons_subset.mp hsub).2 hnaming hnames

/-- What a piece adds to the paths of a descriptor. -/
def SagaPiece.Adds (nested : List Declaration) (piece : SagaPiece) (added : String) : Prop :=
  match piece with
  | .key path | .version path | .field path _ => added = path
  | .fieldsOf path type => ∃ inner, Declaration.fieldsOf nested type = .ok inner ∧
      ∃ below ∈ inner.map (·.path), added = path ++ "." ++ below
  | .table _ | .mapping _ => False

theorem mem_paths_of_applyTo {piece : SagaPiece} {d d' : Descriptor} {added : String}
    (h : piece.applyTo nested d = .ok d') (hp : added ∈ d'.paths) :
    added ∈ d.paths ∨ piece.Adds nested added := by
  cases piece with
  | table name =>
    cases h
    exact .inl hp
  | key path =>
    cases h
    simpa [Descriptor.paths, Descriptor.withField, Descriptor.withKey, SagaPiece.Adds] using hp
  | version path =>
    cases h
    by_cases hin : d.fields.any (·.path = path) = true
    · exact .inl (by simpa [Descriptor.paths, Descriptor.withVersion, hin] using hp)
    · simpa [Descriptor.paths, Descriptor.withVersion, hin, SagaPiece.Adds] using hp
  | field path type =>
    cases h
    simpa [Descriptor.paths, Descriptor.withField, SagaPiece.Adds] using hp
  | fieldsOf path type =>
    obtain ⟨inner, hinner, rfl⟩ := exceptMap_eq_ok_iff.mp h
    rw [Descriptor.paths, Descriptor.withNested, List.map_append, map_path_under,
      List.mem_append] at hp
    refine hp.imp_right fun hp => ?_
    obtain ⟨below, hbelow, rfl⟩ := List.mem_map.mp hp
    exact ⟨inner, hinner, below, hbelow, rfl⟩
  | mapping m =>
    cases h
    exact .inl hp

theorem mem_paths_of_applyAll {pieces : List SagaPiece} {d d' : Descriptor} {path : String}
    (h : applyAll nested pieces d = .ok d') (hp : path ∈ d'.paths) :
    path ∈ d.paths ∨ ∃ piece ∈ pieces, piece.Adds nested path := by
  refine foldlM_invariant (P := fun e => path ∈ e.paths →
    path ∈ d.paths ∨ ∃ piece ∈ pieces, piece.Adds nested path) ?_ h .inl hp
  intro piece hpiece e e' he ih hmem
  rcases mem_paths_of_applyTo he hmem with hmem | hadds
  · exact ih hmem
  · exact .inr ⟨piece, hpiece, hadds⟩

/-- Mappings add no paths. -/
theorem adds_of_mem_mappings {pieces mappings : List SagaPiece} {first piece : SagaPiece}
    {added : String} (hm : ∀ piece ∈ mappings, ∃ m, piece = .mapping m)
    (hpiece : piece ∈ pieces ++ first :: mappings) (ha : piece.Adds nested added) :
    piece ∈ pieces ∨ first.Adds nested added := by
  refine (List.mem_append.mp hpiece).imp_right fun hpiece => ?_
  rcases List.mem_cons.mp hpiece with rfl | hpiece
  · exact ha
  · obtain ⟨m, rfl⟩ := hm _ hpiece
    cases ha

/-- A field of a saga type adds its name, or what the fields of its type add below it. -/
theorem adds_of_addField {p q : SagaPlan} {f : FieldDeclaration} {s : FieldSettings}
    (h : SagaPlan.addField p f s = .ok q) {piece : SagaPiece} (hpiece : piece ∈ q.pieces)
    {added : String} (ha : piece.Adds nested added) :
    piece ∈ p.pieces ∨ added = s.key ∨
      (SagaPiece.fieldsOf s.key f.type.required.text).Adds nested added := by
  have hown : ∀ {first : SagaPiece}, piece ∈ p.pieces ++ first :: SagaPlan.columnPieces s →
      piece ∈ p.pieces ∨ first.Adds nested added := fun hmem =>
    adds_of_mem_mappings isMapping_of_mem_columnPieces hmem ha
  rw [SagaPlan.addField] at h
  -- In the order in which a field is tried: skipped, key, version, then by its nesting.
  split at h
  next =>
    cases h
    exact .inl hpiece
  next =>
    split at h
    next =>
      split at h <;> cases h
      exact (hown hpiece).imp_right .inl
    next =>
      split at h
      next =>
        split at h <;> cases h
        exact (hown hpiece).imp_right .inl
      next =>
        split at h <;> cases h
        next => exact (adds_of_mem_mappings isMapping_of_mem_nestingPieces hpiece ha).imp_right .inr
        next => exact (hown hpiece).imp_right .inl

/-- The paths that the fields of a type add below a field are those of ways through the field. -/
theorem exists_leads_of_fieldsOf {f : FieldDeclaration} {fields : List FieldDeclaration}
    {added : String} (hn : ∀ e ∈ nested, e.IsPlain) (hshape : d.shape = .record fields)
    (hf : f ∈ fields)
    (ha : (SagaPiece.fieldsOf (NamedField.key ⟨d.naming, f⟩) f.type.required.text).Adds
      nested added) :
    ∃ way, d.Leads nested way ∧ NamedField.pathOf way = added := by
  obtain ⟨inner, hinner, below, hbelow, rfl⟩ := ha
  obtain ⟨e, fs, l, he, hb, hlaid, hpaths⟩ := typeFields_lays nested _ _ _ hinner
  rw [hpaths] at hbelow
  obtain ⟨names, hnames, rfl⟩ := List.mem_map.mp hbelow
  have hplain := hn e (Declaration.mem_of_find? he)
  obtain ⟨way, hway, rfl⟩ := hlaid.exists_leads hn hplain hb (List.Subset.refl _) rfl hnames
  obtain ⟨first, rest, rfl⟩ := hway.exists_cons
  exact ⟨_, .within hshape hf he hway, String.intercalate_cons_cons⟩

/-- Each path of a derived descriptor is that of a way to a field. -/
theorem exists_leads_of_derive {derived : Derived} (hn : ∀ e ∈ d :: nested, e.IsPlain)
    (h : Declaration.derive nested d = .ok derived) {path : String}
    (hp : path ∈ derived.descriptor.paths) :
    ∃ way, d.Leads nested way ∧ NamedField.pathOf way = path := by
  obtain ⟨hd, hn⟩ := List.forall_mem_cons.mp hn
  obtain ⟨p, hplan, happlied⟩ := Declaration.derive_eq_ok h
  obtain ⟨fields, hshape, hplan⟩ := Declaration.ofDeclaration_eq_planOf hplan
  obtain ⟨s, -, hread, -⟩ := Declaration.planOf_eq_ok_iff.mp hplan
  have hpieces : ∀ piece ∈ p.pieces, ∀ added, piece.Adds nested added →
      ∃ way, d.Leads nested way ∧ NamedField.pathOf way = added := by
    refine SagaPlan.readFields_invariant (P := fun q => ∀ piece ∈ q.pieces, ∀ added,
      piece.Adds nested added → ∃ way, d.Leads nested way ∧ NamedField.pathOf way = added)
      ?_ hread ?_
    · intro f hf q q' hq hbefore piece hpiece added hadds
      obtain ⟨t, ht⟩ := SagaPlan.isReadable_iff.mp (SagaPlan.exists_readField_iff.mp ⟨q', hq⟩).1
      rw [SagaPlan.readField_eq ht] at hq
      have hkey := FieldSettings.key_of_read (hd _ hshape f hf) ht
      rcases adds_of_addField hq hpiece hadds with hold | rfl | hbelow
      · exact hbefore piece hold added hadds
      · exact ⟨[⟨d.naming, f⟩], .field hshape hf, by
          rw [hkey, NamedField.pathOf, List.map_singleton, String.intercalate_singleton]⟩
      · exact exists_leads_of_fieldsOf hn hshape hf (hkey ▸ hbelow)
    · intro piece hpiece added hadds
      obtain ⟨table, -, rfl⟩ := List.mem_map.mp hpiece
      cases hadds
  rcases mem_paths_of_applyAll happlied hp with hmem | ⟨piece, hpiece, hadds⟩
  · cases hmem
  · exact hpieces piece hpiece path hadds

end

/-! ## Characters -/

section
variable {way : List NamedField}

theorem FieldDeclaration.ascii_identifier {f : FieldDeclaration} (hf : f.isPlain = true) :
    IsAscii f.identifier.toList := by
  intro c hc
  rcases isWordChar_iff.mp ((isPlain_iff.mp hf).1 c hc) with halpha | rfl
  · have hcode := isAlphanum_iff.mp halpha
    omega
  · decide

theorem forall_mem_intercalate_iff {p : Char → Prop} (hdot : p '.') {names : List String} :
    (∀ c ∈ (".".intercalate names).toList, p c) ↔ ∀ name ∈ names, ∀ c ∈ name.toList, p c := by
  induction names with
  | nil => simp
  | cons name rest ih =>
    cases rest with
    | nil => simp
    | cons next rest =>
      rw [String.intercalate_cons_cons, List.forall_mem_cons, ← ih]
      simp [hdot, or_imp, forall_and]

theorem NamedField.forall_mem_pathOf_iff {p : Char → Prop} (hp : CaseBlind p) (hdot : p '.')
    (hway : ∀ n ∈ way, n.field.isPlain = true) :
    (∀ c ∈ (pathOf way).toList, p c) ↔ ∀ n ∈ way,
      (∀ c ∈ n.field.identifier.toList, c ≠ '_' → p c) ∧ ('_' ∈ n.field.identifier.toList →
        ∀ mark ∈ NamingRule.underscoreAs (n.naming.bind NamingRule.ofName?), p mark) := by
  rw [pathOf, forall_mem_intercalate_iff hdot, List.forall_mem_map]
  exact forall₂_congr fun n hn =>
    NamingRule.forall_mem_applyNamed_iff hp n.naming
      (FieldDeclaration.ascii_identifier (hway n hn))

theorem NamingRule.ascii_underscoreAs (rule : Option NamingRule) :
    ∀ mark ∈ underscoreAs rule, mark.toNat < 128 := by
  cases rule with
  | none => simp [underscoreAs]
  | some rule => cases rule <;> simp [underscoreAs]

theorem NamedField.ascii_pathOf (hway : ∀ n ∈ way, n.field.isPlain = true) :
    IsAscii (pathOf way).toList :=
  (forall_mem_pathOf_iff caseBlind_ascii (by decide) hway).mpr fun n hn =>
    ⟨fun c hc _ => FieldDeclaration.ascii_identifier (hway n hn) c hc,
      fun _ => NamingRule.ascii_underscoreAs _⟩

/-- An underscore of a field is left in the parameter only as a dash. -/
theorem NamingRule.forall_mem_underscoreAs_iff {p : Char → Prop} (rule : Option NamingRule) :
    (∀ mark ∈ underscoreAs rule, mark ∉ [' ', '_', '.'] → p mark) ↔
      (underscoreAs rule = some '-' → p '-') := by
  cases rule with
  | none => simp [underscoreAs]
  | some rule => cases rule <;> simp [underscoreAs]

/-- The parameter for a way has the characters of the fields on it, up to their case, apart from
underscores, and dashes if one of the names has them. -/
theorem NamedField.forall_mem_parameterName_iff {p : Char → Prop} (hp : CaseBlind p)
    (hway : ∀ n ∈ way, n.field.isPlain = true) :
    (∀ c ∈ (parameterName (pathOf way)).toList, p c) ↔ ∀ n ∈ way,
      (∀ c ∈ n.field.identifier.toList, c ≠ '_' → p c) ∧ (n.IsDashed → p '-') := by
  have hmarks : CaseBlind (· ∈ [' ', '_', '.']) := caseBlind_mem (by decide)
  have hinner : CaseBlind fun c => c ∉ [' ', '_', '.'] → p c :=
    (hmarks.imp (caseBlind_const False)).imp hp
  -- Names of fields have no other separators of words than underscores.
  have hword : ∀ n ∈ way, ∀ c ∈ n.field.identifier.toList, c ≠ '_' → c ∉ [' ', '_', '.'] := by
    intro n hn c hc hne hmark
    have hchar := (FieldDeclaration.isPlain_iff.mp (hway n hn)).1 c hc
    have hnone : [' ', '_', '.'].any Char.isAlphanum = false := by decide
    exact List.any_eq_false.mp hnone c hmark ((isWordChar_iff.mp hchar).resolve_right hne)
  rw [Sagas.forall_mem_parameterName_iff hp (ascii_pathOf hway),
    forall_mem_pathOf_iff hinner (by simp) hway]
  refine forall₂_congr fun n hn => and_congr ?_ ?_
  · exact forall₂_congr fun c hc => imp_congr_right fun hne =>
      forall_prop_of_true (hword n hn c hc hne)
  · rw [IsDashed, and_imp, NamingRule.forall_mem_underscoreAs_iff]

/-- The parameter for a way has a plain name exactly if no name on the way has dashes. -/
theorem NamedField.isPlainName_iff (hne : way ≠ []) (hway : ∀ n ∈ way, n.field.isPlain = true) :
    IsPlainName (parameterName (pathOf way)) ↔ ∀ n ∈ way, ¬ n.IsDashed := by
  have hword : CaseBlind (isWordChar · = true) := by
    simp only [isWordChar_iff]
    exact caseBlind_isAlphanum.or (caseBlind_eq (by decide))
  have hcharacters : (parameterName (pathOf way)).toList.all isWordChar = true ↔
      ∀ n ∈ way, ¬ n.IsDashed := by
    rw [List.all_eq_true, forall_mem_parameterName_iff hword hway]
    refine forall₂_congr fun n hn => ?_
    have hplain := (FieldDeclaration.isPlain_iff.mp (hway n hn)).1
    rw [and_iff_right fun c hc _ => hplain c hc]
    exact imp_congr_right fun _ => by decide
  have hletters : parameterName (pathOf way) ≠ "" := by
    intro hempty
    -- A name without characters would have every property, but letters are kept.
    have hnone := (forall_mem_parameterName_iff (caseBlind_const False) hway).mp (by simp [hempty])
    obtain ⟨n, hn⟩ := List.exists_mem_of_ne_nil way hne
    obtain ⟨c, hc, halpha⟩ := (FieldDeclaration.isPlain_iff.mp (hway n hn)).2.1
    refine (hnone n hn).1 c hc ?_
    rintro rfl
    exact absurd halpha (by decide)
  exact ⟨fun h => hcharacters.mp h.characters, fun h => ⟨hletters, hcharacters.mpr h⟩⟩

end

theorem Declaration.Leads.isPlain {nested : List Declaration} {d : Declaration}
    {way : List NamedField} (h : d.Leads nested way) (hn : ∀ e ∈ d :: nested, e.IsPlain) :
    ∀ n ∈ way, n.field.isPlain = true := by
  induction h with
  | field hd hf => exact List.forall_mem_singleton.mpr (hn _ List.mem_cons_self _ hd _ hf)
  | @within d inner fields f way hd hf hi h ih =>
    obtain ⟨hown, hnested⟩ := List.forall_mem_cons.mp hn
    have hinner := hnested inner (Declaration.mem_of_find? hi)
    exact List.forall_mem_cons.mpr ⟨hown _ hd _ hf,
      ih (List.forall_mem_cons.mpr ⟨hinner, hnested⟩)⟩

/-! ## Parameters -/

theorem isPlainName_keyParameter : IsPlainName keyParameter :=
  ⟨by decide, by decide⟩

theorem isPlainName_versionParameter : IsPlainName versionParameter :=
  ⟨by decide, by decide⟩

namespace Schema

variable {s : Schema} {d : Descriptor} {mappings : List Mapping} {table idColumn : Option String}

/-- Which keys of the parameters of a write are names. -/
theorem named_mem_keys_iff {name : String} :
    .named name ∈ (s.insertStatement.bindings ++ s.updateStatement.bindings).map (·.key) ↔
      s.dialect.parameters = .named ∧ name ∈ s.parameterNames := by
  have hbindings : s.insertStatement.bindings ++ s.updateStatement.bindings =
      s.bind (s.keySources ++ s.fieldSources) ++ s.bind (s.keySources ++ s.fieldSources) := by
    rw [s.insertStatement_bindings, s.updateStatement_bindings]
  rw [hbindings, List.map_append, List.mem_append, or_self]
  cases hp : s.dialect.parameters with
  | positional => simp [bind_keys_of_positional s hp]
  | named =>
    rw [bind_keys_of_named s hp, writeSources_names]
    simp

theorem forall_parameterNames_iff (h : s.metadata.ResolvedFrom d mappings table idColumn) :
    (∀ name ∈ s.parameterNames, IsPlainName name) ↔
      ∀ path ∈ s.metadata.fields.map (·.path), IsPlainName (parameterName path) := by
  have hfields : s.metadata.fields.map (·.parameter) =
      (s.metadata.fields.map (·.path)).map parameterName := by
    rw [h.fields, List.map_map, List.map_map, List.map_map]
    rfl
  rw [parameterNames, hfields, List.cons_append, List.forall_mem_cons, List.forall_mem_append,
    and_iff_right isPlainName_keyParameter, List.forall_mem_map, List.forall_mem_map,
    and_iff_right fun _ _ => isPlainName_versionParameter]

end Schema

section
variable {dialect : Dialect} {nested : List Declaration} {d : Declaration} {derived : Derived}
variable {table idColumn : Option String} {mappings : List Mapping} {s : Schema}

theorem Metadata.ResolvedFrom.path_mem {m : Metadata} {d : Descriptor}
    (h : m.ResolvedFrom d mappings table idColumn) {path : String}
    (hp : path ∈ m.fields.map (·.path)) : path ∈ d.paths := by
  rw [h.fields, List.map_map] at hp
  obtain ⟨f, hf, rfl⟩ := List.mem_map.mp hp
  exact List.mem_map_of_mem (List.mem_filter.mp (List.mem_filter.mp hf).1).1

/-- The parameters of the writes of a derived saga type have plain names exactly if parameters have
no names, or no field with a column beside those of the key and the version is behind a name with
dashes. -/
theorem parameters_plain_iff (h : Declaration.derive nested d = .ok derived)
    (hs : Schema.ofDescriptor dialect derived.descriptor table idColumn mappings = .ok s)
    (hn : ∀ e ∈ d :: nested, e.IsPlain) :
    (∀ name, .named name ∈ (s.insertStatement.bindings ++ s.updateStatement.bindings).map (·.key) →
        IsPlainName name) ↔
      (s.dialect.parameters = .named → ∀ way, d.Leads nested way →
        NamedField.pathOf way ∈ s.metadata.fields.map (·.path) → ∀ n ∈ way, ¬ n.IsDashed) := by
  have hr := Schema.resolvedFrom_of_ofDescriptor hs
  have hways : (∀ path ∈ s.metadata.fields.map (·.path), IsPlainName (parameterName path)) ↔
      ∀ way, d.Leads nested way → NamedField.pathOf way ∈ s.metadata.fields.map (·.path) →
        ∀ n ∈ way, ¬ n.IsDashed := by
    have hplain : ∀ way, d.Leads nested way →
        (IsPlainName (parameterName (NamedField.pathOf way)) ↔ ∀ n ∈ way, ¬ n.IsDashed) := by
      intro way hway
      obtain ⟨first, rest, hcons⟩ := hway.exists_cons
      exact NamedField.isPlainName_iff (hcons ▸ List.cons_ne_nil _ _) (hway.isPlain hn)
    constructor
    · exact fun hpaths way hway hpath => (hplain way hway).mp (hpaths _ hpath)
    · intro hdashes path hpath
      obtain ⟨way, hway, rfl⟩ := exists_leads_of_derive hn h (hr.path_mem hpath)
      exact (hplain way hway).mpr (hdashes way hway hpath)
  rw [← hways, ← Schema.forall_parameterNames_iff hr]
  simp only [Schema.named_mem_keys_iff, and_imp]
  exact ⟨fun h hp name => h name hp, fun h name hp => h hp name⟩

end

namespace Declaration

/-- A place has a field whose name in documents is in camel case. -/
def place : Declaration where
  name := "Place"
  shape := .record [markedField "zip_code" "String" []]
  settings := [.group "serde" [.value "rename_all" (.string "camelCase")]]

/-- A visit has one field with dashes in its name, its key. -/
def visit : Declaration where
  name := "Visit"
  shape := .record [markedField "correlation_id" "Uuid" [],
    markedField "place" "Place" ["flatten"], markedField "note" "String" []]
  settings := [.group "serde" [.value "rename_all" (.string "kebab-case")]]

/-- Only the way to the key of a visit has dashes. -/
theorem visit_parameters_plain :
    ∃ derived s, derive [place] visit = .ok derived ∧
      Schema.ofDescriptor .sqlServer derived.descriptor none none [] = .ok s ∧
      s.parameterNames = ["correlationId", "placeZipCode", "note"] ∧
      ∀ name, .named name ∈ (s.insertStatement.bindings ++ s.updateStatement.bindings).map (·.key) →
        IsPlainName name := by
  obtain ⟨derived, s, hderived, hschema, hnames, hpaths⟩ : ∃ derived s,
      derive [place] visit = .ok derived ∧
        Schema.ofDescriptor .sqlServer derived.descriptor none none [] = .ok s ∧
        s.parameterNames = ["correlationId", "placeZipCode", "note"] ∧
        s.metadata.fields.map (·.path) = ["place.zipCode", "note"] :=
    ⟨_, _, rfl, rfl, by decide +kernel, by decide +kernel⟩
  have hplain : ∀ e ∈ [visit, place], e.IsPlain := by
    rw [List.forall_mem_cons, List.forall_mem_singleton]
    constructor <;> rintro _ ⟨⟩ <;> decide
  refine ⟨derived, s, hderived, hschema, hnames,
    (parameters_plain_iff hderived hschema hplain).mpr fun _ way hway hpath n hn hdashed => ?_⟩
  have hnodash : ∀ path ∈ ["place.zipCode", "note"], '-' ∉ path.toList := by decide
  have hmarks := (NamedField.forall_mem_pathOf_iff
    ((caseBlind_eq (by decide)).imp (caseBlind_const False)) (by decide)
      (hway.isPlain hplain)).mp fun c hc => ne_of_mem_of_not_mem hc (hnodash _ (hpaths ▸ hpath))
  exact (hmarks n hn).2 hdashed.1 '-' hdashed.2 rfl

def customerFields : List FieldDeclaration :=
  [markedField "correlation_id" "Uuid" [], markedField "full_name" "String" []]

/-- A customer has a field with a dash in its name besides the key. -/
def customer : Declaration where
  name := "Customer"
  shape := .record customerFields
  settings := [.group "serde" [.value "rename_all" (.string "kebab-case")]]

/-- A parameter of a customer has a dash in its name. -/
theorem customer_parameter_dashed :
    ∃ derived s, derive [] customer = .ok derived ∧
      Schema.ofDescriptor .sqlServer derived.descriptor none none [] = .ok s ∧
      (∀ f ∈ customerFields, f.isPlain = true) ∧
      .named "full-name" ∈ s.insertStatement.bindings.map (·.key) ∧
      s.insertStatement.sql = "INSERT INTO Customers ([correlation-id], [full-name]) " ++
        "VALUES (@correlationId, @full-name)" ∧
      ¬ IsPlainName "full-name" :=
  ⟨_, _, rfl, rfl, by decide, by decide +kernel, by decide +kernel, fun h =>
    absurd h.characters (by decide)⟩

end Declaration

end Sagas
