import EagerLoad.Proofs.Loading.Narrowing
import EagerLoad.Proofs.Sql.Conditions

/-!
# Filters of batches

A batch is put for some key tuples. The filter that narrows its statement has one form for a link of one
column and another for links of several columns, but both have the same truth: a row passes exactly if its
link is equal to one of the tuples, column by column. So the rows that come back are those of the batch
whose link labels have the values of a tuple.
-/

namespace EagerLoad

open Sql

variable {s : Schema} {r : Request} {p : Plan} {db : Database} {value : Column → Value} {link : List Column}
  {keys : List (List Value)} {b : Batch} {i : Nat} {tableAlias : String}

/-- Values are equal to those of a key, one by one. -/
def Database.Matches (db : Database) (values key : List Value) : Prop :=
  List.Forall₂ (fun v w => db.compare .equal v w = some true) values key

instance : DecidableRel db.Matches := fun values key =>
  inferInstanceAs (Decidable (List.Forall₂ (fun v w => db.compare .equal v w = some true) values key))

/-- What matches a key has no nulls. -/
theorem Database.Matches.ne_null {values key : List Value} (h : db.Matches values key) :
    ∀ v ∈ values, v ≠ .null := by
  induction h with
  | nil => simp
  | cons hequal _ ih => exact List.forall_mem_cons.mpr ⟨(Database.ne_null_of_equal hequal).1, ih⟩

/-- Columns match a key of their number if each is equal to the value at its place. -/
theorem Database.matches_map_iff {key : List Value} (hlength : key.length = link.length) :
    db.Matches (link.map value) key ↔ ∀ e ∈ link.zip key, db.compare .equal (value e.1) e.2 = some true := by
  rw [Matches, List.forall₂_map_left_iff, List.forall₂_iff_zip]
  constructor
  · rintro ⟨-, hall⟩ ⟨column, v⟩ he
    exact hall he
  · exact fun hall => ⟨hlength.symm, fun he => hall _ he⟩

/-- The filter in the form for links of several columns: a disjunction of the keys, each a conjunction of
comparisons. -/
def tupleFilter (link : List Column) (keys : List (List Value)) : Condition :=
  .or (keys.map fun key => .all ((link.zip key).map fun (column, v) => .compare column .equal v))

/-- The truth that a filter has: that of some tuple being equal to the link. -/
def Database.anyKey (db : Database) (value : Column → Value) (link : List Column)
    (keys : List (List Value)) : Truth :=
  .any (keys.map fun key => .all ((link.zip key).map fun e => db.compare .equal (value e.1) e.2))

theorem eval_tupleFilter (hnull : ∀ key ∈ keys, Value.null ∉ key) :
    (tupleFilter link keys).eval db value = db.anyKey value link keys := by
  rw [tupleFilter, Condition.eval, Condition.evalAll_eq_map, List.map_map]
  refine congrArg _ (List.map_congr_left fun key hkey => ?_)
  rw [Function.comp_apply, Condition.eval_all, List.map_map]
  refine congrArg _ (List.map_congr_left fun e he => ?_)
  exact Condition.eval_compare fun hv => hnull key hkey (hv ▸ (List.of_mem_zip he).2)

/-- A filter on one column compares it with the only value of each key. -/
theorem eval_inList_heads {column : Column} (hlength : ∀ key ∈ keys, key.length = 1) :
    (Condition.inList column (keys.filterMap List.head?) false).eval db value =
      db.anyKey value [column] keys := by
  have hheads : (keys.filterMap List.head?).map (fun v => db.compare .equal (value column) v) =
      keys.map fun key => .all (([column].zip key).map fun e => db.compare .equal (value e.1) e.2) := by
    induction keys with
    | nil => rfl
    | cons key rest ih =>
      obtain ⟨hkey, hrest⟩ := List.forall_mem_cons.mp hlength
      obtain ⟨v, rfl⟩ := List.length_eq_one_iff.mp hkey
      rw [List.filterMap_cons_some List.head?_cons, List.map_cons, List.map_cons, ih hrest]
      exact congrArg (· :: _) (Truth.all_singleton _).symm
  rw [Condition.eval, hheads]
  rfl

/-- Both forms of the filter have the same truth, also where that is unknown. -/
theorem eval_linkFilter (hlength : ∀ key ∈ keys, key.length = link.length)
    (hnull : ∀ key ∈ keys, Value.null ∉ key) :
    (linkFilter link keys).eval db value = (tupleFilter link keys).eval db value := by
  unfold linkFilter
  split
  · rw [eval_inList_heads hlength, eval_tupleFilter hnull]
  · rfl

/-- A row passes the filter exactly if its link matches one of the keys. -/
theorem holds_linkFilter_iff_matches (hlength : ∀ key ∈ keys, key.length = link.length)
    (hnull : ∀ key ∈ keys, Value.null ∉ key) : (linkFilter link keys).holds db value = true ↔
      ∃ key ∈ keys, db.Matches (link.map value) key := by
  rw [holds_linkFilter hlength hnull]
  exact exists_congr fun key => and_congr_right fun hkey => (Database.matches_map_iff (hlength key hkey)).symm

/-- The rows of a batch that is narrowed to some keys are those of the batch whose link matches one. -/
theorem Batch.SelectsLink.rows_forParents (h : b.SelectsLink tableAlias)
    (hlength : ∀ key ∈ keys, key.length = b.link.length) (hnull : ∀ key ∈ keys, Value.null ∉ key) :
    (b.forParents keys).rows db =
      (b.statement.rows db).filter fun row => ∃ key ∈ keys, db.Matches (b.linkLabels.map row.cell) key := by
  have hpage (l : List Scope) : page b.statement.limit b.statement.offset l = l := by
    rw [h.unlimited.1, h.unlimited.2]
    rfl
  rw [forParents, Select.rows_filtered, Select.rows_eq, hpage, hpage, List.filter_map, filter_insertionSort,
    List.filter_filter]
  refine congrArg (List.map _) (congrArg _ (List.filter_congr fun scope _ => ?_))
  rw [Bool.eq_iff_iff]
  simp only [List.all_append, List.all_cons, List.all_nil, Bool.and_true, Bool.and_eq_true,
    Function.comp_apply, decide_eq_true_eq, h.cells_rowOf, holds_linkFilter_iff_matches hlength hnull]
  exact and_comm

/-- What narrowing a batch to some keys does. -/
structure Batch.Narrows (b : Batch) (keys : List (List Value)) : Prop where
  /-- The filter comes last of the conditions, and nothing else is changed. -/
  unchanged : b.forParents keys =
    { b.statement with conditions := b.statement.conditions ++ [linkFilter b.link keys] }
  /-- It is true of a row exactly if the columns of the link are not null and match one of the keys. -/
  holds : ∀ (db : Database) (value : Column → Value), (linkFilter b.link keys).holds db value = true ↔
    (∀ column ∈ b.link, value column ≠ .null) ∧ ∃ key ∈ keys, db.Matches (b.link.map value) key
  /-- The form for one column has the truth of the form for several, also where that is unknown. -/
  form : ∀ (db : Database) (value : Column → Value),
    (linkFilter b.link keys).eval db value = (tupleFilter b.link keys).eval db value
  /-- What is read back from its text has the same truth. -/
  text : ∀ tableAlias, ∃ c, Reads readFactor (tokens ((linkFilter b.link keys).pieces (some tableAlias))) c ∧
    ∀ (db : Database) (scope : Scope), c.eval db (scope.value tableAlias) =
      (linkFilter b.link keys).eval db (scope.value tableAlias)
  /-- So what comes back are the rows of the batch that have the values of a key under the link's labels. -/
  rows : ∀ db : Database, (b.forParents keys).rows db =
    (b.statement.rows db).filter fun row => ∃ key ∈ keys, db.Matches (b.linkLabels.map row.cell) key

/-- Each batch of a compiled plan is narrowed to exactly the targets of the keys for which it is put. -/
theorem compile_narrowsToKeys (hcompile : s.compile r = .ok p) (hb : p.batches[i]? = some b)
    (hlength : ∀ key ∈ keys, key.length = b.link.length) (hnull : ∀ key ∈ keys, Value.null ∉ key) :
    b.Narrows keys := by
  obtain ⟨root, d, -, hd, rfl⟩ := Schema.compile_eq_ok hcompile
  obtain ⟨tableAlias, hlink⟩ := hd.projecting.link i b hb
  constructor
  case unchanged => rfl
  case holds =>
    intro db value
    rw [holds_linkFilter_iff_matches hlength hnull]
    refine ⟨fun ⟨key, hkey, hmatches⟩ => ⟨fun column hcolumn => ?_, key, hkey, hmatches⟩, And.right⟩
    exact hmatches.ne_null _ (List.mem_map_of_mem hcolumn)
  case form => exact fun db value => eval_linkFilter hlength hnull
  case text => exact fun a => ⟨_, Condition.reads _, fun db scope => Condition.eval_normal _ scope⟩
  case rows => exact fun db => hlink.rows_forParents hlength hnull

/-- Shelves with their books, which are joined on the room and the number of the shelf. -/
def shelving : Schema := .ofRelations
  [.declare "Shelf" "shelf" "uuid" ["room", "number"],
    .declare "Book" "book" "uuid" ["title", "room", "shelf_number"]]
  [⟨"books", 0, 1, .many, [("room", "room"), ("number", "shelf_number")], none, none⟩]

/-- The books of two shelves. -/
theorem shelving_narrowsToShelves :
    ∃ p, shelving.compile { Request.forModel "Shelf" with relations := ["books"], limit := none } = .ok p ∧
      ∃ b, p.batches[0]? = some b ∧ b.link = [.of "b1" "room", .of "b1" "shelf_number"] ∧
        b.Narrows [[.text "north", .int32 1], [.text "south", .int32 1]] := by
  have hcompile : ∃ p, shelving.compile
        { Request.forModel "Shelf" with relations := ["books"], limit := none } = .ok p ∧
      ∃ b, p.batches[0]? = some b ∧ b.link = [.of "b1" "room", .of "b1" "shelf_number"] :=
    ⟨_, by cbv, _, by cbv, by cbv⟩
  obtain ⟨p, hp, b, hb, hlink⟩ := hcompile
  exact ⟨p, hp, b, hb, hlink, compile_narrowsToKeys hp hb (by simp [hlink]) (by simp)⟩

end EagerLoad
