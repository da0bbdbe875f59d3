import DriveAccess.Proofs.Server.Statements
import DriveAccess.Proofs.Server.Texts
import Mathlib.Data.List.Infix
/-!
The statements on the tables of a schema name no table of another one: each mention of a table comes
right after the name of the schema and a dot.
-/
namespace DriveAccess

/-- The names of the tables that each tenant has. -/
def storedTables : List String :=
  ["relationships", "permission_grants", "folder_paths", "folders", "group_memberships"]

/-- Wherever a text has the name of a stored table, the schema and a dot come right before it. -/
def Confined (schema text : String) : Prop :=
  ∀ table ∈ storedTables, ∀ before after : String, text = before ++ table ++ after →
    ∃ front, before = front ++ schema ++ "."

/-- The names of the stored tables, letter by letter. -/
def tableNames : List (List Char) :=
  [['r', 'e', 'l', 'a', 't', 'i', 'o', 'n', 's', 'h', 'i', 'p', 's'],
    ['p', 'e', 'r', 'm', 'i', 's', 's', 'i', 'o', 'n', '_', 'g', 'r', 'a', 'n', 't', 's'],
    ['f', 'o', 'l', 'd', 'e', 'r', '_', 'p', 'a', 't', 'h', 's'],
    ['f', 'o', 'l', 'd', 'e', 'r', 's'],
    ['g', 'r', 'o', 'u', 'p', '_', 'm', 'e', 'm', 'b', 'e', 'r', 's', 'h', 'i', 'p', 's']]

theorem toList_mem_tableNames {table : String} (h : table ∈ storedTables) :
    table.toList ∈ tableNames := by
  simp only [storedTables, List.mem_cons, List.not_mem_nil, or_false] at h
  rcases h with rfl | rfl | rfl | rfl | rfl <;> simp [tableNames]

theorem mem_of_tableName {w : List Char} (h : w ∈ tableNames) : 's' ∈ w := by
  revert w
  decide

theorem not_mem_of_tableName {w : List Char} {c : Char} (h : w ∈ tableNames)
    (hc : c ∈ [' ', '.', ')']) : c ∉ w := by
  have hnone : ∀ w ∈ tableNames, ' ' ∉ w ∧ '.' ∉ w ∧ ')' ∉ w := by decide
  obtain ⟨hspace, hdot, hbracket⟩ := hnone w h
  simp only [List.mem_cons, List.not_mem_nil, or_false] at hc
  rcases hc with rfl | rfl | rfl <;> assumption

variable {w xs ys schema acc text before after : List Char} {c : Char} {started : Bool}

/-- An occurrence does not stretch over a character that is not in it. -/
theorem occurrence_cut (hc : c ∉ w) (h : xs ++ c :: ys = before ++ w ++ after) :
    (∃ after', xs = before ++ w ++ after') ∨
      ∃ before', before = xs ++ c :: before' ∧ ys = before' ++ w ++ after := by
  rw [List.append_assoc] at h
  obtain ⟨zs, hbefore, hrest⟩ | ⟨zs, hxs, hrest⟩ := List.append_eq_append_iff.mp h
  · cases zs with
    | nil => cases w with
      | nil => exact .inl ⟨[], by simp [hbefore]⟩
      | cons d w =>
        obtain ⟨rfl, _⟩ := List.cons.inj hrest
        exact absurd List.mem_cons_self hc
    | cons d zs =>
      obtain ⟨rfl, hys⟩ := List.cons.inj hrest
      exact .inr ⟨zs, hbefore, hys.trans (List.append_assoc ..).symm⟩
  · obtain ⟨vs, hzs, _⟩ | ⟨vs, hw, hafter⟩ := List.append_eq_append_iff.mp hrest
    · exact .inl ⟨vs, by rw [hxs, hzs, List.append_assoc]⟩
    · cases vs with
      | nil => exact .inl ⟨[], by simp [hxs, hw]⟩
      | cons d vs =>
        obtain ⟨rfl, _⟩ := List.cons.inj hafter
        exact absurd (by simp [hw]) hc

/-- Of a text of which `acc` has been read already: the names of tables in it are confined, but for
one right at its beginning if that is where a table is named. -/
def Scan (schema : List Char) (started : Bool) (acc text : List Char) : Prop :=
  ∀ w ∈ tableNames, ∀ before after, acc ++ text = before ++ w ++ after →
    schema ++ ['.'] <:+ before ∨ (started ∧ before = [])

/-- No table is named, but for one right at the beginning if that is where a table is named. -/
def clear (started : Bool) (text : List Char) : Bool :=
  tableNames.all fun w => !decide (w <:+: if started then text.tail else text)

theorem clear_occurrence (hclear : clear started text) (hw : w ∈ tableNames)
    (h : text = before ++ w ++ after) : started ∧ before = [] := by
  have hnone := List.all_eq_true.mp hclear w hw
  cases started with
  | false => simp [h] at hnone
  | true => cases before with
    | nil => exact ⟨rfl, rfl⟩
    | cons d before => simp [h] at hnone

namespace Scan

theorem last (h : clear started (acc ++ text)) : Scan schema started acc text :=
  fun _ hw _ _ hoccurs => .inr (clear_occurrence h hw hoccurs)

theorem more (h : Scan schema started (acc ++ xs) text) : Scan schema started acc (xs ++ text) := by
  intro w hw before after hoccurs
  exact h w hw before after (by rw [← hoccurs, List.append_assoc])

/-- What has been read may be left behind at a space. -/
theorem space (hacc : clear started acc) (h : Scan schema false [] text) :
    Scan schema started (acc ++ [' ']) text := by
  intro w hw before after hoccurs
  rw [List.append_assoc, List.singleton_append] at hoccurs
  obtain ⟨after', hacc'⟩ | ⟨before', rfl, htext⟩ :=
    occurrence_cut (not_mem_of_tableName hw (by decide)) hoccurs
  · exact .inr (clear_occurrence hacc hw hacc')
  · obtain hsuffix | ⟨hfalse, _⟩ := h w hw before' after htext
    · exact .inl (hsuffix.trans ((List.suffix_cons _ _).trans (List.suffix_append _ _)))
    · cases hfalse

/-- A table is named after the schema and a dot. -/
theorem table (hs : 's' ∉ schema) (h : Scan schema true [] text) :
    Scan schema false [] (schema ++ '.' :: text) := by
  intro w hw before after hoccurs
  obtain ⟨after', hschema⟩ | ⟨before', rfl, htext⟩ :=
    occurrence_cut (not_mem_of_tableName hw (by decide)) hoccurs
  · have hmem : 's' ∈ schema := by simp [hschema, mem_of_tableName hw]
    exact absurd hmem hs
  · left
    obtain hsuffix | ⟨_, rfl⟩ := h w hw before' after htext
    · exact hsuffix.trans ((List.suffix_cons _ _).trans (List.suffix_append _ _))
    · exact List.suffix_rfl

/-- What names no table ends at a character that is in no name. -/
theorem word (hc : c ∈ [' ', '.', ')']) (hxs : ∀ w ∈ tableNames, ¬ w <:+: xs)
    (h : Scan schema false [] text) : Scan schema false [] (xs ++ c :: text) := by
  intro w hw before after hoccurs
  obtain ⟨after', rfl⟩ | ⟨before', rfl, htext⟩ :=
    occurrence_cut (not_mem_of_tableName hw hc) hoccurs
  · exact absurd (List.infix_append _ _ _) (hxs w hw)
  · obtain hsuffix | ⟨hfalse, _⟩ := h w hw before' after htext
    · exact .inl (hsuffix.trans ((List.suffix_cons _ _).trans (List.suffix_append _ _)))
    · cases hfalse

end Scan

/-! The same for texts as they are written in statements, literal by literal. -/

variable {s lit rest t : String} {cs : List Char}

theorem Confined.of_scan (h : Scan s.toList false [] t.toList) : Confined s t := by
  intro table htable before after hoccurs
  have hlist : [] ++ t.toList = before.toList ++ table.toList ++ after.toList := by
    rw [hoccurs, String.toList_append, String.toList_append]
    rfl
  obtain ⟨front, hfront⟩ | ⟨hfalse, _⟩ := h _ (toList_mem_tableNames htable) _ _ hlist
  · refine ⟨String.ofList front, String.toList_inj.mp ?_⟩
    rw [String.toList_append, String.toList_append, String.toList_ofList, List.append_assoc]
    exact hfront.symm
  · cases hfalse

theorem scan_last (h : lit = String.ofList cs) (hclear : clear started (acc ++ cs)) :
    Scan schema started acc lit.toList := by
  rw [h, String.toList_ofList]
  exact .last hclear

theorem scan_lit (h : lit = String.ofList cs)
    (hrest : Scan schema started (acc ++ cs) rest.toList) :
    Scan schema started acc (lit ++ rest).toList := by
  rw [h, String.toList_append, String.toList_ofList]
  exact .more hrest

/-- What has been read ends in a space and names no table. -/
def pauses (started : Bool) (acc : List Char) : Bool :=
  acc.getLast? == some ' ' && clear started acc.dropLast

theorem scan_pause (hacc : pauses started acc) (h : Scan schema false [] text) :
    Scan schema started acc text := by
  obtain ⟨hlast, hclear⟩ := Bool.and_eq_true_iff.mp hacc
  rw [← List.dropLast_append_getLast? ' ' (beq_iff_eq.mp hlast)]
  exact .space hclear h

theorem scan_table (hs : 's' ∉ s.toList) (hacc : pauses started acc)
    (h : lit = String.ofList ('.' :: cs)) (hrest : Scan s.toList true cs rest.toList) :
    Scan s.toList started acc (s ++ (lit ++ rest)).toList := by
  rw [String.toList_append, String.toList_append, h, String.toList_ofList]
  have hmore : Scan s.toList true [] (cs ++ rest.toList) := Scan.more hrest
  exact scan_pause hacc (.table hs hmore)

theorem scan_table_last (hs : 's' ∉ s.toList) (hacc : pauses started acc)
    (h : lit = String.ofList ('.' :: cs)) (hclear : clear true cs) :
    Scan s.toList started acc (s ++ lit).toList := by
  rw [String.toList_append, h, String.toList_ofList]
  exact scan_pause hacc (.table hs (.last hclear))

/-! Clauses name no table: three letters, one of which is in every name of a table, do not occur. -/

theorem mem_intercalate {l : List String} (h : c ∈ (s.intercalate l).toList) :
    c ∈ s.toList ∨ ∃ x ∈ l, c ∈ x.toList := by
  induction l with
  | nil => simp at h
  | cons x l ih => cases l with
    | nil => exact .inr ⟨x, List.mem_cons_self, by simpa using h⟩
    | cons y l =>
      rw [String.intercalate_cons_cons, String.toList_append, String.toList_append,
        List.mem_append, List.mem_append] at h
      obtain (hx | hs) | hrest := h
      · exact .inr ⟨x, List.mem_cons_self, hx⟩
      · exact .inl hs
      · obtain hs | ⟨z, hz, hmem⟩ := ih hrest
        · exact .inl hs
        · exact .inr ⟨z, List.mem_cons_of_mem _ hz, hmem⟩

theorem not_mem_number {c : Char} (hdigit : c.isDigit = false) (n : Nat) : c ∉ n.repr.toList := by
  intro hmem
  rw [Nat.repr_eq_ofList_toDigits, String.toList_ofList] at hmem
  have hisDigit : c.isDigit := Nat.isDigit_of_mem_toDigits (by decide) (by decide) hmem
  rw [hdigit] at hisDigit
  cases hisDigit

/-- Conditions are made of names of columns, placeholders, and words to join them. -/
theorem not_mem_conditions {c : Char} (hname : ∀ column : TupleColumn, c ∉ column.name.toList)
    (hequals : c ∉ " = $".toList) (hand : c ∉ " AND ".toList) (hdigit : c.isDigit = false)
    (xs : List Condition) :
    c ∉ (" AND ".intercalate (xs.map fun x => s!"{x.column.name} = ${x.placeholder}")).toList := by
  intro hmem
  obtain hsep | ⟨text, htext, hmem⟩ := mem_intercalate hmem
  · exact hand hsep
  · obtain ⟨x, _, rfl⟩ := List.mem_map.mp htext
    simp only [String.toList_append, List.mem_append, ToString.toString] at hmem
    obtain (hin | hin) | hin := hmem
    · exact hname x.column hin
    · exact hequals hin
    · exact not_mem_number hdigit x.placeholder hin

/-- A letter that tells a table by its name. -/
def Telltale (c : Char) : Prop := c = 'f' ∨ c = 'g' ∨ c = 'h'

theorem Telltale.not_mem (h : Telltale c) (hnone : 'f' ∉ xs ∧ 'g' ∉ xs ∧ 'h' ∉ xs) : c ∉ xs := by
  obtain ⟨hf, hg, hh⟩ := hnone
  rcases h with rfl | rfl | rfl <;> assumption

theorem Telltale.not_mem_clause (h : Telltale c) (clause : Clause) : c ∉ clause.text.toList := by
  rw [Clause.text]
  split
  · exact h.not_mem (by decide)
  · refine not_mem_conditions (fun column => h.not_mem ?_) (h.not_mem (by decide))
      (h.not_mem (by decide)) ?_ clause.conditions
    · cases column <;> decide
    · rcases h with rfl | rfl | rfl <;> decide

theorem clause_names_nothing (clause : Clause) :
    ∀ w ∈ tableNames, ¬ w <:+: clause.text.toList := by
  have hletter : ∀ w ∈ tableNames, 'f' ∈ w ∨ 'g' ∈ w ∨ 'h' ∈ w := by decide
  intro w hw hpart
  have htells : ∃ c ∈ w, Telltale c := by
    obtain h | h | h := hletter w hw
    · exact ⟨'f', h, .inl rfl⟩
    · exact ⟨'g', h, .inr (.inl rfl)⟩
    · exact ⟨'h', h, .inr (.inr rfl)⟩
  obtain ⟨c, hc, htell⟩ := htells
  exact htell.not_mem_clause clause (List.IsInfix.subset hpart hc)

theorem scan_clause {clause : Clause} (hacc : pauses started acc)
    (h : lit = String.ofList (c :: cs)) (hc : c ∈ [' ', '.', ')'])
    (hrest : Scan schema false cs rest.toList) :
    Scan schema started acc (clause.text ++ (lit ++ rest)).toList := by
  rw [String.toList_append, String.toList_append, h, String.toList_ofList]
  have hmore : Scan schema false [] (cs ++ rest.toList) := Scan.more hrest
  exact scan_pause hacc (.word hc (clause_names_nothing clause) hmore)

theorem scan_clause_bracket {clause : Clause} (hacc : pauses started acc) :
    Scan schema started acc (clause.text ++ ")").toList := by
  have hend : clause.text ++ ")" = clause.text ++ (")" ++ "") := by rw [String.append_empty]
  rw [hend]
  exact scan_clause hacc rfl (by decide) (scan_last rfl (by decide))

theorem scan_clause_last {clause : Clause} (hacc : pauses started acc) :
    Scan schema started acc clause.text.toList := by
  refine scan_pause hacc fun w hw before after hoccurs => ?_
  exact absurd ⟨before, after, hoccurs.symm⟩ (clause_names_nothing clause w hw)

namespace Statement

set_option maxRecDepth 4000 in
/-- Every statement on the tables of a schema names them as the schema's. -/
theorem confined_of_on {statement : Statement} (h : statement.On s) (hs : 's' ∉ s.toList) :
    Confined s statement.text := by
  apply Confined.of_scan
  -- Each text is read from the left, literal by literal.
  cases h
  case insertRelationship | insertGrant | insertPaths | insertMembership =>
    delta insertRelationship insertGrant insertPaths insertMembership
    simp only [ToString.toString, String.append_assoc]
    exact scan_lit rfl (scan_table hs (by decide) rfl
      (scan_lit rfl (scan_lit rfl (scan_last rfl (by decide)))))
  case insertFolder | grantExists =>
    delta insertFolder grantExists
    simp only [ToString.toString, String.append_assoc]
    exact scan_lit rfl (scan_table hs (by decide) rfl (scan_lit rfl (scan_last rfl (by decide))))
  case relationshipExists t =>
    delta relationshipExists
    generalize (TupleFilter.exact t).clause 1 = clause
    simp only [ToString.toString, String.append_assoc]
    exact scan_lit rfl (scan_table hs (by decide) rfl (scan_clause_bracket (by decide)))
  case selectRelationships f =>
    delta selectRelationships
    generalize f.clause 1 = clause
    simp only [ToString.toString, String.append_assoc]
    exact scan_lit rfl (scan_lit rfl (scan_lit rfl (scan_table hs (by decide) rfl
      (scan_clause (by decide) rfl (by decide) (scan_last rfl (by decide))))))
  case deleteRelationships f _ =>
    delta deleteRelationships
    generalize f.clause 1 = clause
    simp only [ToString.toString, String.append_assoc]
    exact scan_lit rfl (scan_table hs (by decide) rfl (scan_clause_last (by decide)))
  case selectGrant | selectPaths | selectFolder | selectFolders =>
    delta selectGrant selectPaths selectFolder selectFolders
    simp only [ToString.toString, String.append_assoc]
    exact scan_lit rfl (scan_lit rfl (scan_lit rfl
      (scan_table_last hs (by decide) rfl (by decide))))
  case selectGrantsFor | selectGrants | selectPathsTo | selectPathsFrom | selectMembershipsOf |
      selectMembersOf =>
    delta selectGrantsFor selectGrants selectPathsTo selectPathsFrom selectMembershipsOf
      selectMembersOf
    simp only [ToString.toString, String.append_assoc]
    exact scan_lit rfl (scan_lit rfl (scan_lit rfl (scan_table hs (by decide) rfl
      (scan_last rfl (by decide)))))
  case deleteGrant | deleteGrantsFor | deletePathsTouching | setFolderParent | setFolderOwner |
      deleteFolders | deleteMembership =>
    delta deleteGrant deleteGrantsFor deletePathsTouching setFolderParent setFolderOwner
      deleteFolders deleteMembership
    simp only [ToString.toString, String.append_assoc]
    exact scan_lit rfl (scan_table_last hs (by decide) rfl (by decide))
  case setFolderDepths =>
    delta setFolderDepths
    simp only [ToString.toString, String.append_assoc]
    exact scan_lit rfl (scan_table hs (by decide) rfl (scan_last rfl (by decide)))
  case deleteSubtreePaths =>
    delta deleteSubtreePaths
    simp only [ToString.toString, String.append_assoc]
    exact scan_lit rfl (scan_table hs (by decide) rfl (scan_lit rfl
      (scan_table_last hs (by decide) rfl (by decide))))
  case detachSubtree =>
    delta detachSubtree
    simp only [ToString.toString, String.append_assoc]
    exact scan_lit rfl (scan_table hs (by decide) rfl (scan_table hs (by decide) rfl
      (scan_lit rfl (scan_pause (by decide) (scan_lit rfl
        (scan_table hs (by decide) rfl (scan_last rfl (by decide))))))))
  case lockHierarchy => exact scan_last rfl (by decide)

end Statement

end DriveAccess
