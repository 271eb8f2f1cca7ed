import EagerLoad.Proofs.Sql.Evaluation
import Mathlib.Data.List.Basic
import Std.Data.String.ToNat

/-!
# Aliases and labels

A supply never gives an alias out twice, and no alias has a dot in it. So the label of a column tells the
alias and the column, and a row that a statement selects has under each label the value of the column
that it was made for.
-/

namespace EagerLoad

open Sql

namespace AliasSupply

variable {supply later : AliasSupply} {tableAlias table : String}

/-- An alias that was given out. -/
def Given (supply : AliasSupply) (tableAlias : String) : Prop :=
  ∃ letter number, letter ≠ '.' ∧ number < supply.used ∧
    tableAlias = String.ofList [letter] ++ toString number

theorem lowerLetter?_ne_dot (c : Char) : lowerLetter? c ≠ some '.' := by
  unfold lowerLetter?
  split
  · rename_i hlower
    rintro heq
    cases heq
    exact absurd hlower (by decide)
  · split
    · rename_i hupper
      intro heq
      have hcode : Char.ofNat (c.toNat + 0x20) = Char.ofNatAux (c.toNat + 0x20) (.inl (by omega)) :=
        dif_pos _
      have hdot : c.toNat + 0x20 = 0x2e :=
        congrArg Char.toNat (hcode.symm.trans (Option.some.inj heq))
      omega
    · exact nofun

theorem aliasLetter_ne_dot (table : String) : aliasLetter table ≠ '.' := by
  unfold aliasLetter
  cases hletter : table.toList.findSome? lowerLetter? with
  | none => decide
  | some letter =>
    obtain ⟨c, -, hc⟩ := List.exists_of_findSome?_eq_some hletter
    rintro rfl
    exact lowerLetter?_ne_dot c hc

/-- The alias that is taken is given out. -/
theorem given_take (supply : AliasSupply) (table : String) :
    (supply.take table).2.Given (supply.take table).1 :=
  ⟨_, supply.used, aliasLetter_ne_dot table, Nat.lt_succ_self _, rfl⟩

/-- What was given out stays given out. -/
theorem Given.mono (h : supply.Given tableAlias) (hle : supply.used ≤ later.used) :
    later.Given tableAlias := by
  obtain ⟨letter, number, hletter, hlt, rfl⟩ := h
  exact ⟨letter, number, hletter, hlt.trans_le hle, rfl⟩

theorem Given.take (h : supply.Given tableAlias) : (supply.take table).2.Given tableAlias :=
  h.mono (Nat.le_succ _)

/-- The number of an alias is told by the alias. -/
private theorem number_eq {letter letter' : Char} {number number' : Nat}
    (h : String.ofList [letter] ++ toString number = String.ofList [letter'] ++ toString number') :
    number = number' := by
  have hlist := congrArg String.toList h
  simp only [String.toList_append, String.toList_ofList, List.cons_append, List.nil_append,
    List.cons.injEq, String.toList_inj] at hlist
  exact Nat.repr_injective hlist.2

/-- The alias that is taken was not given out before. -/
theorem Given.ne_take (h : supply.Given tableAlias) : tableAlias ≠ (supply.take table).1 := by
  obtain ⟨letter, number, -, hlt, rfl⟩ := h
  exact fun heq => absurd (number_eq heq) hlt.ne

/-- What is taken was not given out. -/
theorem not_given_take (supply : AliasSupply) (table : String) :
    ¬supply.Given (supply.take table).1 :=
  fun h => h.ne_take rfl

/-- What remains when aliases for several tables were taken. -/
def after (supply : AliasSupply) (tables : List String) : AliasSupply :=
  ⟨supply.used + tables.length⟩

theorem after_cons (supply : AliasSupply) (tables : List String) :
    supply.after (table :: tables) = (supply.take table).2.after tables := by
  simp only [after, take, List.length_cons, AliasSupply.mk.injEq]
  omega

/-- What was given out stays given out, whatever is taken. -/
theorem Given.after (h : supply.Given tableAlias) (tables : List String) :
    (supply.after tables).Given tableAlias :=
  h.mono (Nat.le_add_right _ _)

/-- Aliases that are taken for several tables are given out, and were not given out before. -/
theorem given_of_mem_takeAll {tables : List String} (h : tableAlias ∈ supply.takeAll tables) :
    (supply.after tables).Given tableAlias ∧ ¬supply.Given tableAlias := by
  induction tables generalizing supply with
  | nil => exact absurd h List.not_mem_nil
  | cons table rest ih =>
    rw [after_cons]
    rcases List.mem_cons.mp h with rfl | h
    · exact ⟨(given_take supply table).after rest, not_given_take supply table⟩
    · obtain ⟨hgiven, hnot⟩ := ih h
      exact ⟨hgiven, fun hgiven => hnot hgiven.take⟩

/-- Aliases that are taken for several tables differ. -/
theorem nodup_takeAll (supply : AliasSupply) (tables : List String) :
    (supply.takeAll tables).Nodup := by
  induction tables generalizing supply with
  | nil => exact .nil
  | cons table rest ih =>
    refine List.nodup_cons.mpr ⟨fun h => ?_, ih _⟩
    exact (given_of_mem_takeAll h).2 (given_take supply table)

/-- No alias has a dot in it. -/
theorem Given.dotless (h : supply.Given tableAlias) : '.' ∉ tableAlias.toList := by
  obtain ⟨letter, number, hletter, -, rfl⟩ := h
  rw [String.toList_append, String.toList_ofList, List.mem_append, List.mem_singleton]
  rintro (rfl | hmem)
  · exact hletter rfl
  · have hdigits : '.' ∈ Nat.toDigits 10 number := by
      rw [← Nat.toList_repr]
      exact hmem
    exact absurd (Nat.isDigit_of_mem_toDigits (by decide) (by decide) hdigits) (by decide)

end AliasSupply

/-- Lists that are split at the first occurrence of an element. -/
private theorem append_cons_inj {α : Type} {x : α} {l l' m m' : List α} (hl : x ∉ l) (hl' : x ∉ l')
    (h : l ++ x :: m = l' ++ x :: m') : l = l' ∧ m = m' := by
  induction l generalizing l' with
  | nil =>
    cases l' with
    | nil => exact ⟨rfl, (List.cons.inj h).2⟩
    | cons y rest => exact absurd ((List.cons.inj h).1 ▸ List.mem_cons_self) hl'
  | cons y rest ih =>
    cases l' with
    | nil => exact absurd ((List.cons.inj h).1 ▸ List.mem_cons_self) hl
    | cons z rest' =>
      obtain ⟨rfl, htail⟩ := List.cons.inj h
      obtain ⟨rfl, hm⟩ := ih (fun hx => hl (List.mem_cons_of_mem _ hx))
        (fun hx => hl' (List.mem_cons_of_mem _ hx)) htail
      exact ⟨rfl, hm⟩

/-- A label tells its alias and its column. -/
theorem columnLabel_inj {a b c d : String} (ha : '.' ∉ a.toList) (hb : '.' ∉ b.toList)
    (h : columnLabel a c = columnLabel b d) : a = b ∧ c = d := by
  have hlist := congrArg String.toList h
  simp only [columnLabel, String.toList_append, List.append_assoc] at hlist
  have hsplit : a.toList ++ '.' :: c.toList = b.toList ++ '.' :: d.toList := hlist
  obtain ⟨hleft, hright⟩ := append_cons_inj ha hb hsplit
  exact ⟨String.toList_inj.mp hleft, String.toList_inj.mp hright⟩

/-- The name of the column of a link at a position. -/
def linkName (i : Nat) : String := s!"__link{i}"

theorem linkName_injective : Function.Injective linkName := by
  intro i j h
  have hlist := congrArg String.toList h
  simp only [linkName, String.toList_append, List.append_cancel_left_eq,
    String.toList_inj] at hlist
  exact Nat.repr_injective hlist

namespace Sql.Projection

variable {tableAlias : String} {own scope : Scope} {projections : List Projection}
  {c : Column} {label : String}

/-- What is selected has a label, and one column for each label. -/
def Labelled (projections : List Projection) : Prop :=
  ∀ q ∈ projections, ∃ c label, q = .column c (some label) ∧
    ∀ c', .column c' (some label) ∈ projections → c' = c

/-- A row has under a label the value of the only column that is selected there, whatever is selected
after it. -/
theorem named_row (hshape : ∀ q ∈ projections, ∃ c label, q = .column c (some label))
    (hmem : .column c (some label) ∈ projections)
    (honly : ∀ c', .column c' (some label) ∈ projections → c' = c) (more : List Projection) :
    (Projection.tuple tableAlias own scope (projections ++ more)).row.named label =
      .ok (scope.value tableAlias c) := by
  have hlookup : ∀ part : List Projection, part ⊆ projections → .column c (some label) ∈ part →
      (part.flatMap (·.cells tableAlias scope)).lookup label = some (scope.value tableAlias c) := by
    intro part
    induction part with
    | nil => exact fun _ hmem => absurd hmem List.not_mem_nil
    | cons q rest ih =>
      intro hsub hmem
      obtain ⟨c', label', rfl⟩ := hshape q (hsub List.mem_cons_self)
      rw [List.flatMap_cons, cells, Option.getD_some, List.singleton_append, List.lookup_cons]
      by_cases hlabel : label = label'
      · subst hlabel
        rw [honly c' (hsub List.mem_cons_self)]
        simp
      · have hne : (label == label') = false := by simpa using hlabel
        rw [hne]
        refine ih (fun q hq => hsub (List.mem_cons_of_mem _ hq)) ?_
        rcases List.mem_cons.mp hmem with heq | hmem
        · cases heq
          exact absurd rfl hlabel
        · exact hmem
  have hfound := hlookup _ (List.Subset.refl _) hmem
  have hrow : (Projection.tuple tableAlias own scope (projections ++ more)).columns =
      projections.flatMap (·.cells tableAlias scope) ++ more.flatMap (·.cells tableAlias scope) := by
    rw [← List.flatMap_append]
    cases projections with
    | nil => exact absurd hmem List.not_mem_nil
    | cons q rest => rfl
  refine Row.named_ofValues ?_
  rw [hrow, List.lookup_append, hfound]
  rfl

/-- A row has under a label the value of the column that it was made for. -/
theorem Labelled.named (h : Labelled projections) (hmem : .column c (some label) ∈ projections) :
    (Projection.tuple tableAlias own scope projections).row.named label =
      .ok (scope.value tableAlias c) := by
  rw [← List.append_nil projections]
  refine named_row (fun q hq => ?_) hmem (fun c' hc' => ?_) []
  · obtain ⟨c, label, rfl, -⟩ := h q hq
    exact ⟨c, label, rfl⟩
  · obtain ⟨c₀, label₀, heq, honly⟩ := h _ hmem
    cases heq
    exact honly c' hc'

/-- Columns of aliases, each under its label. -/
def ByAlias (projections : List Projection) : Prop :=
  ∀ q ∈ projections, ∃ a c, '.' ∉ a.toList ∧ q = .column (.of a c) (some (columnLabel a c))

theorem byAlias_labelledColumns {a : String} (ha : '.' ∉ a.toList) (columns : List String) :
    ByAlias (labelledColumns a columns) := by
  intro q hq
  obtain ⟨c, -, rfl⟩ := List.mem_map.mp hq
  exact ⟨a, c, ha, rfl⟩

theorem ByAlias.append {more : List Projection} (h : ByAlias projections) (h' : ByAlias more) :
    ByAlias (projections ++ more) := by
  intro q hq
  rcases List.mem_append.mp hq with hq | hq
  · exact h q hq
  · exact h' q hq

/-- Labels made of aliases tell the columns. -/
theorem ByAlias.labelled (h : ByAlias projections) : Labelled projections := by
  intro q hq
  obtain ⟨a, c, ha, rfl⟩ := h q hq
  refine ⟨_, _, rfl, fun c' hc' => ?_⟩
  obtain ⟨b, d, hb, heq⟩ := h _ hc'
  injection heq with hcolumn hlabel
  obtain ⟨rfl, rfl⟩ := columnLabel_inj ha hb (Option.some.inj hlabel)
  exact hcolumn

/-- What a batch selects first: its link, under labels of its own. -/
def ofLink (a : String) (link : List Column) : List Projection :=
  (link.zip ((List.range link.length).map fun i => columnLabel a (linkName i))).map
    fun (c, label) => .column c (some label)

theorem mem_ofLink {a : String} {link : List Column} {q : Projection} :
    q ∈ ofLink a link ↔
      ∃ i c, link[i]? = some c ∧ q = .column c (some (columnLabel a (linkName i))) := by
  rw [ofLink, List.mem_map]
  constructor
  · rintro ⟨⟨c, label⟩, hmem, rfl⟩
    obtain ⟨i, hi⟩ := List.mem_iff_getElem?.mp hmem
    obtain ⟨hc, hlabel⟩ := List.getElem?_zip_eq_some.mp hi
    rw [List.getElem?_map, Option.map_eq_some_iff] at hlabel
    obtain ⟨j, hj, rfl⟩ := hlabel
    obtain ⟨hlt, hij⟩ := List.getElem?_eq_some_iff.mp hj
    rw [List.getElem_range] at hij
    exact ⟨i, c, hc, by rw [hij]⟩
  · rintro ⟨i, c, hc, rfl⟩
    obtain ⟨hlt, -⟩ := List.getElem?_eq_some_iff.mp hc
    refine ⟨(c, columnLabel a (linkName i)), List.mem_iff_getElem?.mpr ⟨i, ?_⟩, rfl⟩
    refine List.getElem?_zip_eq_some.mpr ⟨hc, ?_⟩
    rw [List.getElem?_map, List.getElem?_range hlt]
    rfl

/-- The labels of a batch tell its columns, unless a column is named like one of a link. -/
theorem labelled_ofLink {a : String} {link : List Column} {columns : List String}
    (ha : '.' ∉ a.toList) (hcolumns : ∀ c ∈ columns, ∀ i, c ≠ linkName i) :
    Labelled (ofLink a link ++ labelledColumns a columns) := by
  have hcases {c : Column} {label : String}
      (h : .column c (some label) ∈ ofLink a link ++ labelledColumns a columns) :
      (∃ i, link[i]? = some c ∧ label = columnLabel a (linkName i)) ∨
        ∃ name ∈ columns, c = .of a name ∧ label = columnLabel a name := by
    rcases List.mem_append.mp h with h | h
    · obtain ⟨i, c, hc, heq⟩ := mem_ofLink.mp h
      cases heq
      exact .inl ⟨i, hc, rfl⟩
    · obtain ⟨name, hname, heq⟩ := List.mem_map.mp h
      cases heq
      exact .inr ⟨name, hname, rfl, rfl⟩
  have hinj {name name' : String} (h : columnLabel a name = columnLabel a name') : name = name' :=
    (columnLabel_inj ha ha h).2
  intro q hq
  have hshape : ∃ c label, q = .column c (some label) := by
    rcases List.mem_append.mp hq with hq | hq
    · obtain ⟨i, c, -, rfl⟩ := mem_ofLink.mp hq
      exact ⟨_, _, rfl⟩
    · obtain ⟨name, -, rfl⟩ := List.mem_map.mp hq
      exact ⟨_, _, rfl⟩
  obtain ⟨c, label, rfl⟩ := hshape
  refine ⟨c, label, rfl, fun c' hc' => ?_⟩
  rcases hcases hq with ⟨i, hi, rfl⟩ | ⟨name, hname, rfl, rfl⟩ <;>
    rcases hcases hc' with ⟨j, hj, hlabel⟩ | ⟨name', hname', rfl, hlabel⟩
  · obtain rfl := linkName_injective (hinj hlabel)
    exact Option.some.inj (hj.symm.trans hi)
  · exact absurd (hinj hlabel).symm (hcolumns name' hname' i)
  · exact absurd (hinj hlabel) (hcolumns name hname j)
  · rw [hinj hlabel]

end Sql.Projection

end EagerLoad
