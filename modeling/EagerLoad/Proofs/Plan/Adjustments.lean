import EagerLoad.Proofs.Maps
import EagerLoad.Proofs.Plan.Narrowed

/-!
# Adjustments narrow, each in one place

What is stored for a name is the conjunction of the conditions that were given for it. Each node whose name
has a condition stored is narrowed by it at its one place in the plan, and apart from conditions the plan is
that of the request without adjustments.
-/

namespace EagerLoad

open Sql

variable {s : Schema} {r : Request} {n : Node} {p : Plan} {q : Select} {c : Condition}
  {adjustments adjustments' : KeyMap Condition}

/-- Narrow a request by several conditions, one after the other. -/
def Request.adjustAll (r : Request) (calls : List (String × Condition)) : Request :=
  calls.foldl (fun r call => r.adjust call.1 call.2) r

/-- What is stored for a name to which some conditions were given: their conjunction, or nothing if there
are none. -/
def Sql.Condition.Conjoins (stored : Option Condition) (given : List Condition) : Prop :=
  match stored with
  | none => given = []
  | some c => given ≠ [] ∧ ∀ db value, c.eval db value = Truth.all (given.map (·.eval db value))

theorem Request.adjust_get? (r : Request) (relation name : String) (c : Condition) :
    (r.adjust relation c).adjustments.get? name =
      if name = relation then some (((r.adjustments.get? relation).map (·.both c)).getD c)
      else r.adjustments.get? name := by
  unfold adjust
  rw [KeyMap.get?_insert]
  cases r.adjustments.get? relation <;> rfl

/-- A condition that is given for a name joins those that were given for it before. -/
theorem conjoins_adjust {r : Request} {given : List Condition} {name : String}
    (h : Condition.Conjoins (r.adjustments.get? name) given) (relation : String) (c : Condition) :
    Condition.Conjoins ((r.adjust relation c).adjustments.get? name)
      (given ++ if relation = name then [c] else []) := by
  rw [Request.adjust_get?]
  by_cases hname : name = relation
  · subst hname
    rw [if_pos rfl, if_pos rfl]
    cases hstored : r.adjustments.get? name with
    | none =>
      rw [hstored] at h
      obtain rfl : given = [] := h
      exact ⟨by simp, fun db value => (Truth.all_singleton _).symm⟩
    | some stored =>
      rw [hstored] at h
      obtain ⟨hne, heval⟩ := h
      refine ⟨by simp, fun db value => ?_⟩
      change (stored.both c).eval db value = _
      rw [Condition.eval_both, heval, Truth.all_concat, List.map_append]
      rfl
  · rw [if_neg hname, if_neg (Ne.symm hname), List.append_nil]
    exact h

/-- What is stored for a name conjoins what was given for it, whatever was given for other names in between. -/
theorem conjoins_adjustAll {r : Request} {given : List Condition} {name : String}
    (h : Condition.Conjoins (r.adjustments.get? name) given) (calls : List (String × Condition)) :
    Condition.Conjoins ((r.adjustAll calls).adjustments.get? name)
      (given ++ (calls.filter (·.1 = name)).map (·.2)) := by
  induction calls generalizing r given with
  | nil => simpa [Request.adjustAll] using h
  | cons call rest ih =>
    have hgiven : ((call :: rest).filter (·.1 = name)).map (·.2) =
        (if call.1 = name then [call.2] else []) ++ (rest.filter (·.1 = name)).map (·.2) := by
      by_cases hname : call.1 = name <;> simp [hname]
    rw [hgiven, ← List.append_assoc]
    exact ih (conjoins_adjust h call.1 call.2)

namespace Sql

/-- A join apart from its conditions. -/
def Join.outline (j : Join) : Join :=
  { j with
    on := .literal true
    target := match j.target with
      | .table table => .table table
      | .lateral sub => .lateral { sub with conditions := [] } }

/-- A statement apart from its conditions and those of its joins. -/
def Select.outline (q : Select) : Select :=
  { q with joins := q.joins.map Join.outline, conditions := [] }

end Sql

/-- A plan apart from its conditions. -/
def Plan.outline (p : Plan) : Plan :=
  { p with
    primary := p.primary.outline
    batches := p.batches.map fun b => { b with statement := b.statement.outline } }

/-- How a condition changes the statement that a node is read from, at the place of the node. -/
inductive Node.NarrowedIn (n : Node) (c : Condition) (q q' : Select) : Prop
  | joined (i : Nat) (table : String) (on : Condition) (strategy : n.strategy = .joined)
      (before : q.joins[i]? = some ⟨.left, .table table, n.tableAlias, on⟩)
      (after : q'.joins[i]? = some ⟨.left, .table table, n.tableAlias, on.both (c.qualified n.tableAlias)⟩)
  | selfAliased (i : Nat) (table : String) (on : Condition) (strategy : n.strategy = .selfAliased)
      (before : q.joins[i]? = some ⟨.inner, .table table, n.tableAlias, on⟩)
      (after : q'.joins[i]? = some ⟨.inner, .table table, n.tableAlias, on.both (c.qualified n.tableAlias)⟩)
  | boundedLateral (i : Nat) (sub : Select) (strategy : n.strategy = .boundedLateral)
      (before : q.joins[i]? = some ⟨.left, .lateral sub, n.tableAlias, .literal true⟩)
      (after : q'.joins[i]? = some ⟨.left,
        .lateral { sub with conditions := sub.conditions ++ [c.qualified sub.tableAlias] }, n.tableAlias,
        .literal true⟩)
  | batched (strategy : n.strategy = .batched) (source : q.tableAlias = n.tableAlias)
      (conditions : q'.conditions = q.conditions ++ [c.qualified n.tableAlias])

theorem Sql.Join.outline_narrowed (f : Narrowing) (j : Join) : (j.narrowed f).outline = j.outline := by
  obtain ⟨kind, target, tableAlias, on⟩ := j
  unfold Join.narrowed
  cases f tableAlias with
  | none => rfl
  | some c => cases target <;> rfl

theorem Sql.Select.outline_narrowed (f : Narrowing) (q : Select) : (q.narrowed f).outline = q.outline := by
  have hjoins : (q.joins.map (·.narrowed f)).map Join.outline = q.joins.map Join.outline := by
    rw [List.map_map]
    exact List.map_congr_left fun j _ => j.outline_narrowed f
  unfold outline narrowed
  rw [hjoins]

theorem Sql.Select.outline_narrowedSource (f : Narrowing) (q : Select) :
    (q.narrowedSource f).outline = q.outline := by
  unfold narrowedSource
  cases f q.tableAlias <;> rfl

/-- Only conditions are narrowed. -/
theorem Plan.outline_narrowed (p : Plan) (adjustments : KeyMap Condition) :
    (p.narrowed adjustments).outline = p.outline := by
  unfold outline narrowed
  simp only [Select.outline_narrowed, List.map_map, Plan.mk.injEq, true_and, and_true]
  refine List.map_congr_left fun b _ => ?_
  simp only [Function.comp_apply, Batch.narrowed, Select.outline_narrowedSource, Select.outline_narrowed]

/-- Conditions that are stored for other names than those of the nodes do not matter. -/
theorem Plan.narrowed_congr (h : ∀ n ∈ p.others, adjustments.get? n.name = adjustments'.get? n.name) :
    p.narrowed adjustments = p.narrowed adjustments' := by
  have hstored : adjustments.storedFor p.others = adjustments'.storedFor p.others := by
    funext tableAlias
    unfold KeyMap.storedFor
    cases hfind : p.others.find? (·.tableAlias == tableAlias) with
    | none => rfl
    | some n => exact h n (List.mem_of_find?_eq_some hfind)
  unfold narrowed
  rw [hstored]

theorem Plan.statement?_narrowed (source : RowSource) :
    (p.narrowed adjustments).statement? source = (p.statement? source).map fun read =>
      (match source with
        | .primary => read.1.narrowed (adjustments.storedFor p.others)
        | .batch _ => (read.1.narrowed (adjustments.storedFor p.others)).narrowedSource
            (adjustments.storedFor p.others), read.2) := by
  cases source with
  | primary => rfl
  | batch i =>
    simp only [statement?, narrowed, List.getElem?_map, Option.map_map]
    rfl

theorem Sql.Select.joins_narrowedSource (f : Narrowing) (q : Select) :
    (q.narrowedSource f).joins = q.joins := by
  unfold narrowedSource
  cases f q.tableAlias <;> rfl

/-- A node is narrowed at its place by what is stored for its name. -/
theorem Plan.PlacesOnce.narrowedIn (h : p.PlacesOnce) (hn : n ∈ p.others)
    (hc : adjustments.get? n.name = some c) :
    ∃ q q' link, p.statement? n.source = some (q, link) ∧
      (p.narrowed adjustments).statement? n.source = some (q', link) ∧ n.NarrowedIn c q q' := by
  obtain ⟨q, link, hread, hstands⟩ := h.stands n hn
  have hstored : adjustments.storedFor p.others n.tableAlias = some c :=
    (KeyMap.storedFor_of_mem h.apart hn).trans hc
  have hjoins {f : Narrowing} {source : RowSource} : (match source with
      | .primary => q.narrowed f
      | .batch _ => (q.narrowed f).narrowedSource f).joins = q.joins.map (·.narrowed f) := by
    cases source with
    | primary => rfl
    | batch i => exact Select.joins_narrowedSource _ _
  have hjoin {j : Join} (hj : j ∈ q.joins) (halias : j.tableAlias = n.tableAlias) :
      j.narrowed (adjustments.storedFor p.others) = j.filtered c := by
    unfold Join.narrowed
    rw [halias, hstored]
  refine ⟨q, _, link, hread, by rw [statement?_narrowed, hread]; rfl, ?_⟩
  cases hstands with
  | joined table on strategy join =>
    obtain ⟨i, hi⟩ := List.mem_iff_getElem?.mp join
    refine .joined i table on strategy hi ?_
    rw [hjoins, List.getElem?_map, hi, Option.map_some, hjoin join rfl]
    rfl
  | selfAliased table on strategy join =>
    obtain ⟨i, hi⟩ := List.mem_iff_getElem?.mp join
    refine .selfAliased i table on strategy hi ?_
    rw [hjoins, List.getElem?_map, hi, Option.map_some, hjoin join rfl]
    rfl
  | boundedLateral sub strategy join =>
    obtain ⟨i, hi⟩ := List.mem_iff_getElem?.mp join
    refine .boundedLateral i sub strategy hi ?_
    rw [hjoins, List.getElem?_map, hi, Option.map_some, hjoin join rfl]
    rfl
  | batched index table strategy opened source =>
    have halias : q.tableAlias = n.tableAlias := congrArg Source.tableAlias source
    have hnarrowed (f : Narrowing) : (q.narrowed f).tableAlias = q.tableAlias := rfl
    refine .batched strategy halias ?_
    rw [opened]
    simp only [Select.narrowedSource, hnarrowed, halias, hstored]
    rfl

/-- Adjustments only narrow, and each in one place. A request compiles to the plan of the request without
its adjustments, narrowed at the one place of each node whose name has a condition stored. What is stored for
other names leaves no trace, and what is stored for a name is the conjunction of what was given for it. -/
theorem compile_narrows (s : Schema) (r : Request) :
    s.compile r = (s.compile r.unadjusted).map (·.narrowed r.adjustments) ∧
      (∀ p₀, s.compile r.unadjusted = .ok p₀ → ∃ p, s.compile r = .ok p ∧ p.outline = p₀.outline ∧
        p₀.PlacesOnce ∧
        (∀ n ∈ p₀.others, ∀ c, r.adjustments.get? n.name = some c → ∃ q q' link,
          p₀.statement? n.source = some (q, link) ∧ p.statement? n.source = some (q', link) ∧
            n.NarrowedIn c q q') ∧
        ∀ r', r'.unadjusted = r.unadjusted →
          (∀ n ∈ p₀.others, r'.adjustments.get? n.name = r.adjustments.get? n.name) → s.compile r' = .ok p) ∧
      ∀ calls, (r.adjustAll calls).unadjusted = r.unadjusted ∧ ∀ name,
        Condition.Conjoins ((r.unadjusted.adjustAll calls).adjustments.get? name)
          ((calls.filter (·.1 = name)).map (·.2)) := by
  have hequation (r : Request) : s.compile r = (s.compile r.unadjusted).map (·.narrowed r.adjustments) :=
    Schema.compile_eq_narrowed r
  refine ⟨hequation r, fun p₀ hp₀ => ?_, fun calls => ⟨?_, fun name => ?_⟩⟩
  · have honce : p₀.PlacesOnce := by
      obtain ⟨root, d, -, hd, rfl⟩ := Schema.compile_eq_ok hp₀
      exact hd.placesOnce
    refine ⟨p₀.narrowed r.adjustments, by rw [hequation r, hp₀]; rfl, p₀.outline_narrowed _, honce,
      fun n hn c hc => honce.narrowedIn hn hc, fun r' hr' hsame => ?_⟩
    rw [hequation r', hr', hp₀, ← Plan.narrowed_congr hsame]
    rfl
  · induction calls generalizing r with
    | nil => rfl
    | cons call rest ih => exact ih (r.adjust call.1 call.2)
  · have hnothing : Condition.Conjoins (r.unadjusted.adjustments.get? name) [] := rfl
    exact conjoins_adjustAll hnothing calls

/-- A role with those of its users who have a name. -/
def namedUsers (name : String) : Request :=
  { Request.forModel "Role" with relations := ["users"] }.adjust "users"
    (.compare (.bare "name") .equal (.text name))

/-- The users of a role are narrowed at one place. A condition on posts, which are not loaded, changes
nothing. -/
theorem namedUsers_narrows :
    let eve := Condition.compare (.bare "name") .equal (.text "Eve")
    let r := (namedUsers "Eve").adjust "posts" (.isNull (.bare "title") true)
    ∃ p₀ p, forum.compile r.unadjusted = .ok p₀ ∧ forum.compile r = .ok p ∧
      forum.compile (namedUsers "Eve") = .ok p ∧ p.outline = p₀.outline ∧ p₀.PlacesOnce ∧
      ∃ n ∈ p₀.others, n.name = "users" ∧ ∃ q q' link, p₀.statement? n.source = some (q, link) ∧
        p.statement? n.source = some (q', link) ∧ n.NarrowedIn eve q q' := by
  intro eve r
  obtain ⟨-, hnarrows, -⟩ := compile_narrows forum r
  have hplain : ∃ p₀, forum.compile r.unadjusted = .ok p₀ ∧
      (p₀.others.any fun n => n.name == "users") = true ∧
      (p₀.others.all fun n => n.name == "users") = true := ⟨_, by cbv, by cbv, by cbv⟩
  obtain ⟨p₀, hp₀, husers, honly⟩ := hplain
  obtain ⟨n, hn, hname⟩ := List.any_eq_true.mp husers
  have hname : n.name = "users" := by simpa using hname
  obtain ⟨p, hp, houtline, honce, hplaces, htrace⟩ := hnarrows p₀ hp₀
  refine ⟨p₀, p, hp₀, hp, htrace _ rfl fun k hk => ?_, houtline, honce, n, hn, hname,
    hplaces n hn eve ?_⟩
  · have hk : k.name = "users" := by simpa using List.all_eq_true.mp honly k hk
    rw [hk]
    rfl
  · rw [hname]
    rfl

end EagerLoad
