import Sagas.Proofs.Binding
import Sagas.Samples.Note

/-! Reading the quoted column names of a query back from its text: a name is read back exactly if
the closing quote is not in it. -/
namespace Sagas

/-! ## Reading -/

/-- The name up to the first closing quote that is not doubled, and what comes after the quote. A
doubled quote stands for one in the name. -/
def readQuoted (closing : Char) : List Char → Option (List Char × List Char)
  | [] => none
  | c :: rest =>
    if c ≠ closing then (readQuoted closing rest).map (Prod.map (c :: ·) id)
    else
      match rest with
      | [] => some ([], [])
      | next :: after =>
        if next = closing then (readQuoted closing after).map (Prod.map (closing :: ·) id)
        else some ([], next :: after)

section
variable {closing : Char} {text name rest : List Char}

theorem readQuoted_cons_of_ne {c : Char} (h : c ≠ closing) :
    readQuoted closing (c :: text) = (readQuoted closing text).map (Prod.map (c :: ·) id) := by
  cases text <;> simp [readQuoted, h]

/-- A name without the closing quote is read up to the first one. -/
theorem readQuoted_append (hname : closing ∉ name) (hrest : rest.head? ≠ some closing) :
    readQuoted closing (name ++ closing :: rest) = some (name, rest) := by
  induction name with
  | nil =>
    cases rest with
    | nil => simp [readQuoted]
    | cons next after =>
      have hnext : next ≠ closing := fun h => hrest (congrArg some h)
      simp [readQuoted, hnext]
  | cons c name ih =>
    obtain ⟨hc, hname⟩ := List.ne_and_not_mem_of_not_mem_cons hname
    rw [List.cons_append, readQuoted_cons_of_ne hc.symm, ih hname]
    rfl

/-- Reading uses up one character for each of the name, one more for each quote in it, and the quote
at its end, which is not doubled. -/
theorem readQuoted_eq_some (h : readQuoted closing text = some (name, rest)) :
    ∃ used, text = used ++ rest ∧ used.length = name.length + name.count closing + 1 ∧
      used.count closing = 2 * name.count closing + 1 ∧ rest.head? ≠ some closing := by
  -- Each character is used up as one (`case2`), each quote in the name as two (`case4`), and the
  -- reading ends at a quote with nothing or something else behind it.
  fun_induction readQuoted closing text generalizing name with
  | case1 => cases h
  | case2 c tail hc ih =>
    obtain ⟨⟨inner, _⟩, hinner, heq⟩ := Option.map_eq_some_iff.mp h
    cases heq
    obtain ⟨used, rfl, hlength, hcount, hrest⟩ := ih hinner
    refine ⟨c :: used, rfl, ?_, ?_, hrest⟩
    · rw [List.length_cons, List.length_cons, List.count_cons_of_ne hc]
      omega
    · rw [List.count_cons_of_ne hc, List.count_cons_of_ne hc, hcount]
  | case3 c hc =>
    cases h
    refine ⟨[c], rfl, rfl, ?_, nofun⟩
    simp [not_not.mp hc]
  | case4 c hc after ih =>
    obtain ⟨⟨inner, _⟩, hinner, heq⟩ := Option.map_eq_some_iff.mp h
    cases heq
    obtain ⟨used, rfl, hlength, hcount, hrest⟩ := ih hinner
    rw [not_not.mp hc]
    refine ⟨closing :: closing :: used, rfl, ?_, ?_, hrest⟩
    · rw [List.length_cons, List.length_cons, List.length_cons, List.count_cons_self]
      omega
    · rw [List.count_cons_self, List.count_cons_self, List.count_cons_self]
      omega
  | case5 c hc next after hnext =>
    cases h
    refine ⟨[c], rfl, rfl, ?_, fun h => hnext (Option.some.inj h)⟩
    simp [not_not.mp hc]

/-- A name with the closing quote in it is read as another one. -/
theorem readQuoted_append_ne (hname : closing ∈ name) (hrest : rest.head? ≠ some closing)
    (left : List Char) : readQuoted closing (name ++ closing :: rest) ≠ some (name, left) := by
  intro h
  obtain ⟨used, htext, hlength, hcount, -⟩ := readQuoted_eq_some h
  have hpos : 0 < name.count closing := List.count_pos_iff.mpr hname
  -- What is used up goes on after the quote for as long as there are quotes in the name.
  have hused : used = name ++ closing :: rest.take (name.count closing) := by
    have htake := congrArg (List.take used.length) htext
    rw [List.take_left, hlength, Nat.add_assoc, Nat.add_comm _ 1, List.take_append,
      List.take_of_length_le (by omega), Nat.add_sub_cancel_left, Nat.add_comm 1,
      List.take_succ_cons] at htake
    exact htake.symm
  rw [hused, List.count_append, List.count_cons_self] at hcount
  cases rest with
  | nil =>
    rw [List.take_nil, List.count_nil] at hcount
    omega
  | cons next after =>
    have hnext : next ≠ closing := fun heq => hrest (congrArg some heq)
    obtain ⟨k, hk⟩ := Nat.exists_eq_add_of_lt hpos
    rw [hk, Nat.zero_add, List.take_succ_cons, List.count_cons_of_ne hnext] at hcount
    have hle : (after.take k).count closing ≤ k :=
      Nat.le_trans List.count_le_length (List.length_take_le k after)
    omega

end

/-! ## Texts of queries -/

/-- A list of texts is joined by putting the separator after each text before a chosen one, and
before each text after it. -/
theorem intercalate_append_cons (sep text : String) (before after : List String) :
    sep.intercalate (before ++ text :: after) =
      String.join (before.map (· ++ sep)) ++ text ++ String.join (after.map (sep ++ ·)) := by
  induction before with
  | nil =>
    rw [List.nil_append, List.map_nil, String.join_nil, String.empty_append]
    induction after generalizing text with
    | nil => simp
    | cons next after ih =>
      rw [String.intercalate_cons_cons, ih, List.map_cons, String.join_cons, String.append_assoc,
        String.append_assoc]
  | cons first before ih =>
    have hne : before ++ text :: after ≠ [] := by simp
    obtain ⟨next, rest, hrest⟩ := List.exists_cons_of_ne_nil hne
    rw [List.cons_append, hrest, String.intercalate_cons_cons, ← hrest, ih, List.map_cons,
      String.join_cons]
    simp only [String.append_assoc]

theorem zipWith_zipIdx {α β : Type} (f : α → α × Nat → β) (xs : List α) (start : Nat) :
    List.zipWith f xs (xs.zipIdx start) = (xs.zipIdx start).map fun x => f x.1 x := by
  induction xs generalizing start with
  | nil => rfl
  | cons x xs ih => rw [List.zipIdx_cons, List.zipWith_cons_cons, List.map_cons, ih]

namespace Schema

/-- What comes after the column in the clause of a predicate at a place, counted from zero. -/
def test (s : Schema) (p : Predicate) (place : Nat) : String :=
  " " ++ p.comparison.sql ++ " " ++ (s.queryParameter p place).key.placeholder

def clauseAt (s : Schema) (p : Predicate) (place : Nat) : String :=
  s.dialect.quote p.column ++ s.test p place

/-- A query up to the clause that comes after those of the given predicates. -/
def textBefore (s : Schema) (earlier : List Predicate) : String :=
  s.dialect.lockedSelect s.metadata.table ++ " WHERE " ++
    String.join (earlier.zipIdx.map fun (p, place) => s.clauseAt p place ++ " AND ")

/-- A query from the column of a predicate at a place on, with those that come after it. -/
def textAfter (s : Schema) (p : Predicate) (place : Nat) (later : List Predicate) : String :=
  s.test p place ++
    String.join ((later.zipIdx (place + 1)).map fun (q, i) => " AND " ++ s.clauseAt q i) ++
    s.dialect.lockEnding

variable (s : Schema)

theorem selection_sql_of_ne_nil {predicates : List Predicate} (h : predicates ≠ []) :
    (s.selection predicates).sql = s.dialect.lockedSelect s.metadata.table ++ (" WHERE " ++
      " AND ".intercalate (predicates.zipIdx.map fun (p, place) => s.clauseAt p place)) ++
      s.dialect.lockEnding := by
  have hclauses : List.zipWith
      (fun (p : Predicate) (q : Parameter) => s.clause p.column p.comparison.sql q.key.placeholder)
      predicates (predicates.zipIdx.map fun (p, i) => s.queryParameter p i) =
        predicates.zipIdx.map fun (p, place) => s.clauseAt p place := by
    rw [List.zipWith_map_right, zipWith_zipIdx]
    refine List.map_congr_left fun (p, place) _ => ?_
    simp only [clause, clauseAt, test, String.append_assoc]
  have hne : (predicates.zipIdx.map fun (p, place) => s.clauseAt p place).isEmpty = false := by
    simpa using h
  simp only [selection, hclauses, hne]
  rfl

/-- The text of a query, split at the column of one of its clauses. -/
theorem selection_sql_split (earlier later : List Predicate) (p : Predicate) :
    (s.selection (earlier ++ p :: later)).sql =
      s.textBefore earlier ++ s.dialect.quote p.column ++ s.textAfter p earlier.length later := by
  rw [s.selection_sql_of_ne_nil (by simp), List.zipIdx_append, List.zipIdx_cons, List.map_append,
    List.map_cons, intercalate_append_cons, List.map_map, List.map_map, Nat.zero_add, textBefore,
    textAfter]
  simp only [clauseAt, Function.comp_def, String.append_assoc]

theorem head?_textAfter (p : Predicate) (place : Nat) (later : List Predicate) :
    (s.textAfter p place later).toList.head? = some ' ' := by
  simp [textAfter, test]

end Schema

variable {s : Schema} {opening closing : Char} {filter : Filter} {c : Command}

/-- Behind the opening quote of a clause, exactly the column is read, and reading stops exactly
where the test of the clause begins, if and only if the closing quote is not in the column and is
not the space that comes after it. From a column with the closing quote in it another name is
read. -/
theorem quoted_column_read_back_iff (hq : s.dialect.quotes = some (opening, closing))
    (hc : s.formatter.query filter = .ok c) :
    ∃ predicates, s.metadata.predicates filter = .ok predicates ∧
      ∀ earlier p later, predicates = earlier ++ p :: later → ∃ text : String,
        c.sql = s.textBefore earlier ++ opening.toString ++ text ∧
        (readQuoted closing text.toList =
            some (p.column.toList, (s.textAfter p earlier.length later).toList) ↔
          closing ∉ p.column.toList ∧ closing ≠ ' ') ∧
        (closing ∈ p.column.toList → closing ≠ ' ' →
          ∀ left, readQuoted closing text.toList ≠ some (p.column.toList, left)) := by
  obtain ⟨predicates, hp, rfl⟩ := exceptMap_eq_ok_iff.mp hc
  refine ⟨predicates, hp, fun earlier p later hsplit => ?_⟩
  subst hsplit
  have hhead := s.head?_textAfter p earlier.length later
  have hrest : closing ≠ ' ' →
      (s.textAfter p earlier.length later).toList.head? ≠ some closing := fun hne heq =>
    hne (Option.some.inj (heq.symm.trans hhead))
  have htext : (p.column ++ closing.toString ++ s.textAfter p earlier.length later).toList =
      p.column.toList ++ closing :: (s.textAfter p earlier.length later).toList := by
    simp
  refine ⟨p.column ++ closing.toString ++ s.textAfter p earlier.length later, ?_, ?_, ?_⟩
  · rw [s.selection_sql_split, Dialect.quote, hq]
    simp only [String.append_assoc]
  · rw [htext]
    constructor
    · intro hread
      have hne : closing ≠ ' ' := by
        obtain ⟨-, -, -, -, hstop⟩ := readQuoted_eq_some hread
        rintro rfl
        exact hstop hhead
      exact ⟨fun hmem => readQuoted_append_ne hmem (hrest hne) _ hread, hne⟩
    · exact fun ⟨hmem, hne⟩ => readQuoted_append hmem (hrest hne)
  · rw [htext]
    exact fun hmem hne => readQuoted_append_ne hmem (hrest hne)

namespace Samples.Note

/-- The notes with a text, except for one key. -/
def others : Filter :=
  .and (.compare "CorrelationId" .ne (.uuid .nil)) (.compare "Text" .eq (.string "draft"))

theorem text_read_back :
    ∃ s c text, Schema.ofDescriptor .sqlServer descriptor none none [] = .ok s ∧
      s.formatter.query others = .ok c ∧
      c.sql = "SELECT * FROM Notes WITH (UPDLOCK, ROWLOCK) WHERE [CorrelationId] <> @value0 AND " ++
        "[" ++ text ∧
      readQuoted ']' text.toList = some ("Text".toList, " = @value1".toList) := by
  obtain ⟨predicates, hp, hclauses⟩ := @quoted_column_read_back_iff
    ((Schema.ofDescriptor .sqlServer descriptor none none []).toOption.getD default)
    '[' ']' others _ rfl rfl
  cases hp
  obtain ⟨text, hsql, hread, -⟩ := hclauses [_] _ [] rfl
  exact ⟨_, _, text, rfl, rfl, hsql, hread.mpr (by decide +kernel)⟩

/-- A comparison with a path in which the quotation ends early. -/
def widened : Filter :=
  .compare "Text] <> @value0 OR [Text" .eq (.string "draft")

/-- The path of a comparison can end the quotation of its column, and what comes after it is then no
part of a name: the query finds every note with a text. -/
theorem quotation_ended_early :
    ∃ s p c, Schema.ofDescriptor .sqlServer descriptor none none [] = .ok s ∧
      s.metadata.predicates widened = .ok [p] ∧ p.column = "Text] <> @value0 OR [Text" ∧
      s.formatter.query widened = .ok c ∧
      c.sql = s.textBefore [] ++ "[" ++ "Text] <> @value0 OR [Text] = @value0" ∧
      readQuoted ']' "Text] <> @value0 OR [Text] = @value0".toList =
        some ("Text".toList, " <> @value0 OR [Text] = @value0".toList) :=
  ⟨_, _, _, rfl, rfl, by decide +kernel, rfl, by decide +kernel, by decide +kernel⟩

end Samples.Note

end Sagas
