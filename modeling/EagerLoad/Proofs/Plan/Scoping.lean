import EagerLoad.Proofs.Loading.Statements
import EagerLoad.Proofs.Plan.ScopedHops
import EagerLoad.Proofs.Plan.Selected

/-!
# Compiled plans are well scoped

No alias is introduced twice in a plan. Every column that a statement refers to is qualified with an alias
that the statement has introduced by then, or in a sub-select the statement around it, and what stands
behind the alias has the column, unless the column is of an adjustment.
-/

namespace EagerLoad

open Sql

variable {s : Schema} {r : Request} {root : s.EntityId} {hops : List s.RelationId} {d d' : Draft}
  {id : s.RelationId} {m n : Node} {notes : Notes} {a : Attachment} {p : Plan}

namespace Plan

/-- The statement of a source, with the columns by which it is narrowed to parents. -/
def statement? (p : Plan) : RowSource → Option (Select × List Column)
  | .primary => some (p.primary, [])
  | .batch index => p.batches[index]?.map fun b => (b.statement, b.link)

/-- The aliases that the statements of a plan introduce. -/
def aliases (p : Plan) : List String :=
  p.primary.aliases ++ p.batches.flatMap (·.statement.aliases)

/-- Every alias of a plan is introduced once, and every statement refers to what is introduced. -/
structure WellScoped (s : Schema) (r : Request) (p : Plan) : Prop where
  distinct : p.aliases.Nodup
  /-- The statements, the columns by which they are narrowed, and the nodes that are read from them. -/
  refers : ∀ source statement link, p.statement? source = some (statement, link) →
    ∃ first, ∃ seen : Introduced s, statement.Scoped r [] first seen ∧
      (∀ column ∈ link, column.Declared seen) ∧ ∀ n ∈ p.nodes, n.source = source → n.IntroducedIn seen

end Plan

/-- What a changed element adds to the parts of a list. -/
theorem perm_flatMap_modify {α β : Type} {f : α → α} {g : α → List β} {more : List β} {l : List α}
    {i : Nat} (hi : i < l.length) (h : ∀ x, g (f x) = g x ++ more) :
    ((l.modify i f).flatMap g).Perm (l.flatMap g ++ more) := by
  induction l generalizing i with
  | nil => exact absurd hi (Nat.not_lt_zero i)
  | cons x rest ih =>
    cases i with
    | zero =>
      rw [List.modify_zero_cons, List.flatMap_cons, List.flatMap_cons, h, List.append_assoc,
        List.append_assoc]
      exact List.perm_append_comm.append_left (g x)
    | succ i =>
      rw [List.modify_succ_cons, List.flatMap_cons, List.flatMap_cons, List.append_assoc]
      exact (ih (Nat.lt_of_succ_lt_succ hi)).append_left (g x)

/-- A changed element leaves the parts of a list as they are. -/
theorem flatMap_modify_of_forall {α β : Type} {f : α → α} {g : α → List β} (h : ∀ x, g (f x) = g x)
    (l : List α) (i : Nat) : (l.modify i f).flatMap g = l.flatMap g := by
  induction l generalizing i with
  | nil => cases i <;> rfl
  | cons x rest ih =>
    cases i with
    | zero => rw [List.modify_zero_cons, List.flatMap_cons, List.flatMap_cons, h]
    | succ i => rw [List.modify_succ_cons, List.flatMap_cons, List.flatMap_cons, ih]

namespace Draft

/-- Changing the statement of a source changes no other one. -/
theorem statement?_modify (d : Draft) (source source' : RowSource) (change : Select → Select) :
    ((d.modify source change).plan s root).statement? source' =
      ((d.plan s root).statement? source').map fun read =>
        (if source = source' then change read.1 else read.1, read.2) := by
  cases source with
  | primary => cases source' <;> simp [modify, plan, Plan.statement?, Function.comp_def]
  | batch i =>
    cases source' with
    | primary => simp [modify, plan, Plan.statement?]
    | batch j =>
      simp only [modify, plan, Plan.statement?, List.getElem?_modify, Option.map_map, Option.map_eq_map,
        RowSource.batch.injEq]
      refine congrArg (Option.map · _) (funext fun b => ?_)
      by_cases hij : i = j <;> simp [hij]

theorem statement?_entrust (d : Draft) (n : Node) (source : RowSource) :
    ((d.entrust n).plan s root).statement? source = (d.plan s root).statement? source := by
  unfold entrust
  split
  · rfl
  · cases source with
    | primary => rfl
    | batch j =>
      simp only [plan, Plan.statement?, List.getElem?_modify, Option.map_map, Option.map_eq_map]
      refine congrArg (Option.map · _) (funext fun b => ?_)
      simp only [Function.comp_apply]
      split <;> rfl

theorem introduced_entrust (d : Draft) (n : Node) :
    ((d.entrust n).plan s root).aliases = (d.plan s root).aliases := by
  unfold entrust
  split
  · rfl
  · simp only [plan, Plan.aliases]
    refine congrArg (d.primary.aliases ++ ·) (flatMap_modify_of_forall ?_ _ _)
    exact fun _ => rfl

/-- Changing a statement that is there adds the aliases that its change adds. -/
theorem perm_introduced_modify {source : RowSource} {change : Select → Select} {added : List String}
    (hsource : ((d.plan s root).statement? source).isSome)
    (hchange : ∀ q, (change q).aliases = q.aliases ++ added) :
    ((d.modify source change).plan s root).aliases.Perm ((d.plan s root).aliases ++ added) := by
  cases source with
  | primary =>
    simp only [modify, plan, Plan.aliases, hchange, List.append_assoc]
    exact List.perm_append_comm.append_left _
  | batch i =>
    have hi : i < d.batches.length := by
      simpa [plan, Plan.statement?] using hsource
    simp only [modify, plan, Plan.aliases, List.append_assoc]
    exact (perm_flatMap_modify hi fun b => hchange b.statement).append_left _

/-- Where a batch is added, its statement is read for the new source, and no other one changes. -/
theorem statement?_of_append {batch : Batch} {source : RowSource} {read : Select × List Column}
    (h : (d'.plan s root).statement? source = some read) (hprimary : d'.primary = d.primary)
    (hbatches : d'.batches = d.batches ++ [batch]) :
    (source = .batch d.batches.length ∧ read = (batch.statement, batch.link)) ∨
      (source ≠ .batch d.batches.length ∧ (d.plan s root).statement? source = some read) := by
  cases source with
  | primary =>
    refine .inr ⟨by simp, ?_⟩
    rw [← h]
    simp only [plan, Plan.statement?, hprimary]
  | batch i =>
    simp only [plan, Plan.statement?, hbatches, List.getElem?_append] at h
    split at h
    · rename_i hlt
      exact .inr ⟨by simpa using hlt.ne, h⟩
    · rename_i hle
      rw [List.getElem?_singleton] at h
      split at h
      · obtain rfl : i = d.batches.length := by omega
        exact .inl ⟨rfl, (Option.some.inj h).symm⟩
      · cases h

/-- Every alias of a draft is introduced once, and the supply gave it out. -/
structure Introduces (s : Schema) (root : s.EntityId) (d : Draft) : Prop where
  distinct : (d.plan s root).aliases.Nodup
  given : ∀ tableAlias ∈ (d.plan s root).aliases, d.aliases.Given tableAlias

/-- Every statement of a draft refers to what is introduced, and introduces the nodes that are read from
it. -/
def Refers (s : Schema) (r : Request) (root : s.EntityId) (d : Draft) : Prop :=
  ∀ source statement link, (d.plan s root).statement? source = some (statement, link) →
    ∃ first, ∃ seen : Introduced s, statement.Scoped r [] first seen ∧
      (∀ column ∈ link, column.Declared seen) ∧ ∀ n ∈ d.nodes, n.source = source → n.IntroducedIn seen

/-- A statement is there for every node of a draft. -/
theorem Sourced.isSome_statement? (hs : d.Sourced) (hmem : m ∈ d.nodes) :
    ((d.plan s root).statement? m.source).isSome := by
  cases hsource : m.source with
  | primary => rfl
  | batch i => simpa [Draft.plan, Plan.statement?] using hs.lt_of_source hmem hsource

namespace Introduces

theorem start (s : Schema) (root : s.EntityId) : (s.rootDraft root).Introduces s root := by
  refine ⟨List.nodup_singleton _, fun tableAlias hmem => ?_⟩
  obtain rfl := List.mem_singleton.mp hmem
  exact AliasSupply.given_take _ _

/-- Aliases stay distinct when further ones are taken and introduced. -/
theorem take (h : d.Introduces s root) {tables : List String} (hsupply : d'.aliases = d.aliases.after tables)
    (hperm : (d'.plan s root).aliases.Perm ((d.plan s root).aliases ++ d.aliases.takeAll tables)) :
    d'.Introduces s root := by
  constructor
  · refine hperm.nodup_iff.mpr (List.nodup_append'.mpr
      ⟨h.distinct, AliasSupply.nodup_takeAll _ _, fun tableAlias hold hnew => ?_⟩)
    exact (AliasSupply.given_of_mem_takeAll hnew).2 (h.given _ hold)
  · intro tableAlias hmem
    rw [hsupply]
    rcases List.mem_append.mp (hperm.mem_iff.mp hmem) with hmem | hmem
    · exact (h.given _ hmem).after tables
    · exact (AliasSupply.given_of_mem_takeAll hmem).1

/-- Joining a node into the statement of its parent introduces the aliases of the joins. -/
theorem join {joins : List Join} {tables : List String} (h : d.Introduces s root)
    (hread : ((d.plan s root).statement? m.source).isSome) (hj : s.JoinsInto r id d m a joins tables)
    (hd' : d' = { a.draft with others := d.others ++ [n], notes }.entrust n) : d'.Introduces s root := by
  have hmodified : d' = ({ d with
      aliases := d.aliases.after tables
      others := d.others ++ [n]
      notes }.modify m.source
        (Select.bringIn joins a.tableAlias (s.target id).columns)).entrust n := by
    obtain ⟨_, hdraft⟩ := hj.draft
    rw [hd', hdraft]
    cases m.source <;> rfl
  refine h.take (by rw [hmodified, aliases_entrust, aliases_modify]) ?_
  rw [hmodified, introduced_entrust, ← hj.aliases]
  exact perm_introduced_modify (d := { d with
    aliases := d.aliases.after tables
    others := d.others ++ [n]
    notes }) hread fun q => q.aliases_bringIn joins _ _

/-- Opening a batch introduces the aliases of its statement. -/
theorem openOwn {batch : Batch} {tables : List String} (h : d.Introduces s root)
    (ho : s.OpensOwn id d a batch tables)
    (hd' : d' = { a.draft with others := d.others ++ [n], notes }.entrust n) : d'.Introduces s root := by
  refine h.take (by rw [hd', aliases_entrust, ho.draft]) ?_
  rw [hd', ho.draft, introduced_entrust, ← ho.aliases]
  simp [Draft.plan, Plan.aliases]

end Introduces

namespace Refers

/-- The draft that loads the root is well scoped. -/
theorem start (s : Schema) (r : Request) (root : s.EntityId) : (s.rootDraft root).Refers s r root := by
  have hown : ((s.rootDraft root).root.tableAlias, Behind.entity root) ∈
      [((s.rootDraft root).root.tableAlias, Behind.entity root)] := List.mem_singleton_self _
  intro source statement link hread
  cases source with
  | primary =>
    cases hread
    refine ⟨_, _, ⟨⟨root, rfl, rfl⟩, rfl, ?_, by simp, by simp⟩, by simp, ?_⟩
    · exact Projection.scoped_labelledColumns hown fun column hcolumn => hcolumn
    · intro n hn _
      obtain rfl := List.mem_singleton.mp hn
      exact ⟨root, rfl, .inl hown⟩
  | batch index => cases hread

/-- Joining a node into the statement of its parent keeps a draft well scoped. -/
theorem join {joins : List Join} {tables : List String} (h : d.Refers s r root) (hmem : m ∈ d.nodes)
    (hjoined : s.JoinedTo r id d m a joins tables) (hn : n = (s.hop r m id).node d a)
    (hd' : d' = { a.draft with others := d.others ++ [n], notes }.entrust n)
    (hnodes : ∀ k ∈ d'.nodes, k ∈ d.nodes ∨ k = n) : d'.Refers s r root := by
  have hmodified : d' = ({ d with
      aliases := d.aliases.after tables
      others := d.others ++ [n]
      notes }.modify m.source
        (Select.bringIn joins a.tableAlias (s.target id).columns)).entrust n := by
    obtain ⟨_, hdraft⟩ := hjoined.draft
    rw [hd', hdraft]
    cases m.source <;> rfl
  intro source statement link hstatement
  rw [hmodified, statement?_entrust, statement?_modify] at hstatement
  obtain ⟨⟨q, link'⟩, hq, heq⟩ := Option.map_eq_some_iff.mp hstatement
  obtain ⟨rfl, rfl⟩ := Prod.mk.inj heq
  obtain ⟨first, seen, hscoped, hlink, hheld⟩ := h source q link' hq
  have hnsource : n.source = m.source := hn ▸ hjoined.source
  by_cases hsource : m.source = source
  · obtain ⟨more, hjoins, hnew⟩ := hjoined.refers seen (hheld m hmem hsource)
    obtain ⟨behind, hown, hhas⟩ := hnew.exists_has rfl
    have hsub : seen ⊆ seen ++ more := List.subset_append_left _ _
    rw [if_pos hsource]
    refine ⟨first, seen ++ more, hscoped.bringIn hjoins hown hhas,
      fun column hcolumn => (hlink column hcolumn).mono hsub, fun k hk hks => ?_⟩
    rcases hnodes k hk with hk | rfl
    · exact (hheld k hk hks).mono hsub
    · exact hn ▸ hnew
  · rw [if_neg hsource]
    refine ⟨first, seen, hscoped, hlink, fun k hk hks => ?_⟩
    rcases hnodes k hk with hk | rfl
    · exact hheld k hk hks
    · exact absurd (hnsource.symm.trans hks) hsource

/-- Opening a batch keeps a draft well scoped. -/
theorem openBatch {batch : Batch} {tables : List String} (h : d.Refers s r root) (hs : d.Sourced)
    (hopens : s.OpensBatch r id d m a batch tables) (hn : n = (s.hop r m id).node d a)
    (hd' : d' = { a.draft with others := d.others ++ [n], notes }.entrust n)
    (hnodes : ∀ k ∈ d'.nodes, k ∈ d.nodes ∨ k = n) : d'.Refers s r root := by
  have hopened : d' = { d with
      aliases := d.aliases.after tables
      others := d.others ++ [n]
      batches := d.batches ++ [batch]
      notes }.entrust n := by
    rw [hd', hopens.draft]
  intro source statement link hstatement
  have hnsource : n.source = .batch d.batches.length := hn ▸ hopens.source
  rw [hopened, statement?_entrust] at hstatement
  rcases statement?_of_append (d := d) hstatement rfl rfl with ⟨rfl, heq⟩ | ⟨hsource, hread⟩
  · obtain ⟨rfl, rfl⟩ := Prod.mk.inj heq
    obtain ⟨first, seen, hscoped, hlink, hnew⟩ := hopens.refers
    refine ⟨first, seen, hscoped, hlink, fun k hk hks => ?_⟩
    rcases hnodes k hk with hk | rfl
    · exact absurd (hs.lt_of_source hk hks) (lt_irrefl _)
    · exact hn ▸ hnew
  · obtain ⟨first, seen, hscoped, hlink, hheld⟩ := h source statement link hread
    refine ⟨first, seen, hscoped, hlink, fun k hk hks => ?_⟩
    rcases hnodes k hk with hk | rfl
    · exact hheld k hk hks
    · exact absurd (hks.symm.trans hnsource) hsource

end Refers

end Draft

/-- Whatever is requested, every draft that a compilation passes through has its own aliases. -/
theorem Schema.Compiling.introduces (h : s.Compiling r root hops d) : d.Introduces s root := by
  induction h with
  | start => exact .start s root
  | reuse _ _ ih => exact ih
  | attach h hmem _ _ ha ih =>
    obtain ⟨a, hplace, -, hd'⟩ := Hop.attach_eq_ok ha
    rcases Schema.joinsInto_or_opensOwn hplace with ⟨joins, tables, hj⟩ | ⟨batch, tables, ho⟩
    · exact ih.join (h.sourced.isSome_statement? hmem) hj hd'
    · exact ih.openOwn ho hd'

/-- Every draft that a compilation passes through is well scoped. -/
theorem Schema.Compiling.refers (h : s.Compiling r root hops d) (hdeclared : s.Declared)
    (hr : r.Unqualified) (hfit : ∀ id : s.RelationId, JoinsFit (s.relation id).join (s.relation id).junction
      (s.entity (s.relation id).source) (s.target id))
    (hself : ∀ key, r.selfKey = some key → key ∈ (s.entity root).columns) : d.Refers s r root := by
  induction h with
  | start => exact .start s r root
  | reuse _ _ ih => exact ih
  | @attach hops d d' id m n h hmem hsource _ ha ih =>
    obtain ⟨a, hplace, hn, hd'⟩ := Hop.attach_eq_ok ha
    obtain ⟨hroot, hothers⟩ := Hop.nodes_of_attach ha
    have hnodes : ∀ k ∈ d'.nodes, k ∈ d.nodes ∨ k = n := by
      simp [Draft.nodes, hroot, hothers, or_assoc]
    have hkey : ∀ key, r.selfKey = some key → (s.relation id).target = d.root.entity →
        key ∈ (s.target id).columns := by
      intro key hkey htarget
      rw [h.root_eq] at htarget
      obtain heq : (s.relation id).target = root := Fin.ext htarget
      rw [Schema.target, heq]
      exact hself key hkey
    rcases s.joinedTo_or_opensBatch hdeclared hr (hfit id) hsource hkey hplace with
      ⟨joins, tables, hjoined⟩ | ⟨batch, tables, hopens⟩
    · exact ih.join hmem hjoined hn hd' hnodes
    · exact ih.openBatch h.sourced hopens hn hd' hnodes

/-- The self key of a request that compiles is a column of the root. -/
theorem Schema.selfKey_mem (h : s.compile r = .ok p) (hroot : s.entityNamed r.model = .ok root) :
    ∀ key, r.selfKey = some key → key ∈ (s.entity root).columns := by
  intro key hkey
  obtain ⟨root', hroot', h⟩ := bind_eq_ok.mp h
  obtain ⟨_, hrequired, -⟩ := bind_eq_ok.mp h
  obtain rfl : root' = root := Except.ok.inj (hroot'.symm.trans hroot)
  rw [hkey] at hrequired
  exact Entity.requireColumn_eq_ok.mp hrequired

/-- Every plan that is compiled over a built schema is well scoped, if the entities are declared with their
keys and the adjustments of the request are on unqualified columns. -/
theorem compile_wellScoped {entities : List Entity} {declarations : List Declaration}
    (hdeclared : ∀ e ∈ entities, e.Declared) (hbuild : Schema.build entities declarations = .ok s)
    (hcompile : s.compile r = .ok p) (hr : r.Unqualified) : p.WellScoped s r := by
  obtain ⟨root, d, hroot, hd, rfl⟩ := Schema.compile_eq_ok hcompile
  have hself := Schema.selfKey_mem hcompile hroot
  have hs : s.Declared := Schema.declared_of_build hdeclared hbuild
  exact ⟨hd.introduces.distinct, hd.refers hs hr (Schema.build_joinsFit hbuild) hself⟩

/-- Posts with their tags of one name, of which three are loaded for each post. -/
theorem taggedPosts_wellScoped :
    let posts := Entity.declare "Post" "post" "id" ["title"]
    let tags := Entity.declare "Tag" "tag" "id" ["name"]
    let tagged : Declaration :=
      ⟨"Post", "tags", "Tag", .many, [("id", "post_id")], some ⟨"post_tag", [("tag_id", "id")]⟩, none⟩
    let r := { Request.forModel "Post" with relations := ["tags"], limit := some 3 }.adjust "tags"
      (.compare (.bare "name") .equal (.text "lean"))
    ∃ s p, (∀ e ∈ [posts, tags], e.Declared) ∧ Schema.build [posts, tags] [tagged] = .ok s ∧
      s.compile r = .ok p ∧ r.Unqualified ∧ p.aliases = ["p0", "t1", "p2", "t3"] ∧ p.WellScoped s r := by
  intro posts tags tagged r
  have hcompile : ∃ s p, Schema.build [posts, tags] [tagged] = .ok s ∧ s.compile r = .ok p ∧
      p.aliases = ["p0", "t1", "p2", "t3"] := ⟨_, _, by rfl, by cbv, by cbv⟩
  obtain ⟨s, p, hbuild, hp, haliases⟩ := hcompile
  have hr : r.Unqualified := by
    intro name c hc
    have hentries : r.adjustments.entries = [("tags", .compare (.bare "name") .equal (.text "lean"))] := by
      rfl
    rw [KeyMap.get?, hentries, List.lookup_cons, List.lookup_nil] at hc
    split at hc
    · cases hc
      simp [Condition.Unqualified, Condition.columns, Column.bare]
    · cases hc
  have hdeclared : ∀ e ∈ [posts, tags], e.Declared := by
    simp [posts, tags, Entity.declared_declare]
  exact ⟨s, p, hdeclared, hbuild, hp, hr, haliases, compile_wellScoped hdeclared hbuild hp hr⟩

end EagerLoad
