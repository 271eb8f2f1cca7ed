import EagerLoad.Proofs.Hydration.Grouped

/-!
# Folding a row keeps the groups

If the arena holds the groups of the rows so far, then after a row is folded below a parent it holds the
groups of these rows and that one. The row joins the group of its key, which is opened if it is new, and
goes on to the children that are read from the same statement.
-/

namespace EagerLoad

variable {p : Plan} {answers : Nat → List Row} {a a' : Arena} {n child : Node} {feed : Feed}
  {t : LoadTree} {row : Row} {q : Nat} {e : KeyedRecord} {key : String} {parent parent' : Option Nat}
  {source : RowSource}

/-- A row that is added for a parent is the last of its rows. -/
theorem Feed.add_self : feed.add [parent] row parent = feed parent ++ [row] := by
  simp [Feed.add]

/-- Nothing is added for another parent. -/
theorem Feed.add_of_ne (h : parent' ≠ parent) : feed.add [parent] row parent' = feed parent' := by
  simp [Feed.add, h]

/-- A row joins the rows of its key below its parent only. -/
theorem Feed.rowsOf_add_of_ne (h : parent' = parent → n.key? row ≠ some key) :
    n.rowsOf key (feed.add [parent] row parent') = n.rowsOf key (feed parent') := by
  by_cases hp : parent' = parent
  · subst hp
    rw [Feed.add_self, Node.rowsOf_concat, if_neg (h rfl), List.append_nil]
  · rw [Feed.add_of_ne hp]

theorem Feed.rowsOf_add (h : n.key? row = some key) :
    n.rowsOf key (feed.add [parent] row parent) = n.rowsOf key (feed parent) ++ [row] := by
  rw [Feed.add_self, Node.rowsOf_concat, if_pos h]

namespace Arena

/-- A row without a key changes nothing. -/
theorem GroupedAt.add_of_none (hg : a.GroupedAt n feed) (h : n.key? row = none) :
    a.GroupedAt n (feed.add [parent] row) := by
  refine ⟨hg.inStep, fun parent' => ?_, fun e he hnode => ?_⟩
  · rw [hg.keys]
    by_cases hp : parent' = parent
    · subst hp
      rw [Feed.add_self, Node.keys_concat_none h]
    · rw [Feed.add_of_ne hp]
  · rw [hg.values e he hnode, Feed.rowsOf_add_of_ne (by simp [h])]

theorem feedBelow_add_of_none (h : n.key? row = none) :
    a.feedBelow p answers n (feed.add [parent] row) child = a.feedBelow p answers n feed child := by
  have hrows (e : KeyedRecord) :
      n.rowsOf e.key (feed.add [parent] row e.parent) = n.rowsOf e.key (feed e.parent) :=
    Feed.rowsOf_add_of_ne (by simp [h])
  funext parent'
  cases parent' with
  | none => rfl
  | some q => simp only [feedBelow, hrows]

/-- What is added to the rows of a record does not change its columns. -/
theorem GroupedAt.values_add (hg : a.GroupedAt n feed) (he : e ∈ a.log) (hnode : e.node = n.id) :
    e.values = n.firstValues (n.rowsOf e.key (feed.add [parent] row e.parent)) := by
  obtain ⟨q, hq⟩ := List.getElem?_of_mem he
  have hne := hg.rowsOf_ne_nil (mem_entries.mpr ⟨hq, hnode, rfl⟩)
  rw [hg.values e he hnode]
  by_cases h : e.parent = parent ∧ n.key? row = some e.key
  · rw [← h.1, Feed.rowsOf_add h.2, Node.firstValues_append hne]
  · rw [Feed.rowsOf_add_of_ne fun hp hkey => h ⟨hp, hkey⟩]

/-- A row whose key is there joins its group. -/
theorem GroupedAt.add_known (hg : a.GroupedAt n feed) (hkey : n.key? row = some key)
    (he : (e, q) ∈ a.entries n.id parent) (hekey : e.key = key) :
    a.GroupedAt n (feed.add [parent] row) := by
  have hmem : key ∈ n.keys (feed parent) := by
    rw [← hg.keys parent, ← hekey]
    exact List.mem_map_of_mem he
  refine ⟨hg.inStep, fun parent' => ?_, fun e he hnode => hg.values_add he hnode⟩
  rw [hg.keys]
  by_cases hp : parent' = parent
  · subst hp
    rw [Feed.add_self, Node.keys_concat_some hkey, if_pos hmem]
  · rw [Feed.add_of_ne hp]

/-- A row whose key is new makes a record. -/
theorem GroupedAt.add_new (hg : a.GroupedAt n feed) (hkey : n.key? row = some key)
    (hnew : key ∉ (a.entries n.id parent).map (·.1.key)) :
    (a.push (n.makes row parent key)).GroupedAt n (feed.add [parent] row) := by
  rw [hg.keys] at hnew
  refine ⟨hg.inStep.push _, fun parent' => ?_, fun e he hnode => ?_⟩
  · rw [hg.inStep.entries_push, List.map_append, hg.keys]
    by_cases hp : parent' = parent
    · subst hp
      rw [Feed.add_self, Node.keys_concat_some hkey, if_neg hnew]
      simp [Node.makes]
    · rw [Feed.add_of_ne hp]
      simp [Node.makes, Ne.symm hp]
  · rcases List.mem_append.mp (hg.inStep.log_push ▸ he) with he | he
    · exact hg.values_add he hnode
    · obtain rfl := List.mem_singleton.mp he
      rw [Node.makes, Feed.rowsOf_add hkey, Node.rowsOf_eq_nil.mpr hnew]
      rfl

/-- What belongs to a child after a row joined the group of a record. -/
theorem GroupedAt.feedBelow_add_known (hg : a.GroupedAt n feed) (hkey : n.key? row = some key)
    (he : (e, q) ∈ a.entries n.id parent) (hekey : e.key = key) :
    a.feedBelow p answers n (feed.add [parent] row) child =
      if child.source = n.source then (a.feedBelow p answers n feed child).add [some q] row
      else a.feedBelow p answers n feed child := by
  obtain ⟨hq, hnode, hparent⟩ := mem_entries.mp he
  have hne := hg.rowsOf_ne_nil he
  funext parent'
  cases parent' with
  | none => split <;> simp [feedBelow, Feed.add]
  | some q' =>
    by_cases hqq : q' = q
    · subst hqq
      rw [feedBelow_of_record hq hnode, hparent, hekey, Feed.rowsOf_add hkey]
      split
      · rename_i hsource
        rw [Feed.add_self, feedBelow_of_record hq hnode, Plan.rowsBelow_of_eq hsource,
          Plan.rowsBelow_of_eq hsource, hparent, hekey]
      · rename_i hsource
        rw [feedBelow_of_record hq hnode, hparent, hekey]
        exact Plan.rowsBelow_congr hsource (Node.firstValues_append (hekey ▸ hne)) fun _ _ => rfl
    · have hsame : a.feedBelow p answers n (feed.add [parent] row) child (some q') =
          a.feedBelow p answers n feed child (some q') := by
        by_cases hrecord : ∃ e, a.log[q']? = some e ∧ e.node = n.id
        · obtain ⟨e', he', hnode'⟩ := hrecord
          rw [feedBelow_of_record he' hnode', feedBelow_of_record he' hnode', Feed.rowsOf_add_of_ne]
          intro hp hkey'
          refine hqq (hg.eq_of_key_eq (mem_entries.mpr ⟨he', hnode', hp⟩) he ?_)
          exact (Option.some.inj (hkey'.symm.trans hkey)).trans hekey.symm
        · have hnone : ∀ e, a.log[q']? = some e → e.node ≠ n.id :=
            fun e he hnode => hrecord ⟨e, he, hnode⟩
          rw [feedBelow_of_not hnone, feedBelow_of_not hnone]
      have hqq' : some q' ≠ some q := fun h => hqq (Option.some.inj h)
      split
      · rw [hsame, Feed.add_of_ne hqq']
      · exact hsame

/-- What belongs to a child after a row made a record. -/
theorem GroupedAt.feedBelow_add_new (hg : a.GroupedAt n feed) (hkey : n.key? row = some key)
    (hnew : key ∉ (a.entries n.id parent).map (·.1.key))
    (hanswers : ∀ i, child.source = .batch i → child.source ≠ n.source → answers i = []) :
    (a.push (n.makes row parent key)).feedBelow p answers n (feed.add [parent] row) child =
      if child.source = n.source then
        (a.feedBelow p answers n feed child).add [some a.records.length] row
      else a.feedBelow p answers n feed child := by
  rw [hg.keys] at hnew
  have hq : (a.push (n.makes row parent key)).log[a.records.length]? = some (n.makes row parent key) := by
    rw [hg.inStep.log_push_getElem?, if_pos rfl]
  have hbefore : a.feedBelow p answers n feed child (some a.records.length) = [] := by
    apply feedBelow_of_not
    simp [hg.inStep.log_length]
  funext parent'
  cases parent' with
  | none => split <;> simp [feedBelow, Feed.add]
  | some q' =>
    by_cases hqq : q' = a.records.length
    · subst hqq
      rw [feedBelow_of_record hq rfl, Node.makes, Feed.rowsOf_add hkey, Node.rowsOf_eq_nil.mpr hnew]
      split
      · rename_i hsource
        rw [Feed.add_self, hbefore, Plan.rowsBelow_of_eq hsource]
      · rename_i hsource
        rw [hbefore, Plan.rowsBelow, if_neg hsource]
        split
        · rfl
        · rename_i i hi
          split
          · rw [hanswers i hi hsource, Batch.linked_nil]
          · rfl
    · have hsame : (a.push (n.makes row parent key)).feedBelow p answers n
          (feed.add [parent] row) child (some q') = a.feedBelow p answers n feed child (some q') := by
        have hlog : (a.push (n.makes row parent key)).log[q']? = a.log[q']? := by
          rw [hg.inStep.log_push_getElem?, if_neg hqq]
        simp only [feedBelow, hlog]
        split
        · rename_i e he
          split
          · rename_i hnode
            rw [Feed.rowsOf_add_of_ne]
            intro hp hkey'
            have hmem : e.key ∈ n.keys (feed parent) := by
              rw [← hg.keys parent]
              exact List.mem_map_of_mem (mem_entries.mpr ⟨he, hnode, hp⟩)
            exact hnew (Option.some.inj (hkey'.symm.trans hkey) ▸ hmem)
          · rfl
        · rfl
      have hqq' : some q' ≠ some a.records.length := fun h => hqq (Option.some.inj h)
      split
      · rw [hsame, Feed.add_of_ne hqq']
      · exact hsame

/-- Folding a row below a record adds it to each child that is read from its statement. -/
private theorem Grouped.absorbBelow {children : List LoadTree} {feeds : LoadTree → Feed}
    (ih : ∀ c ∈ children, ∀ {parent : Option Nat} {a a' : Arena} {feed : Feed},
      c.info.source = source → Grouped p answers a c feed →
      c.absorb row source parent a = (.ok (), a') →
      Grouped p answers a' c (feed.add [parent] row))
    (hids : (children.flatMap LoadTree.ids).Nodup) (hg : ∀ c ∈ children, Grouped p answers a c (feeds c))
    (h : LoadTree.absorbBelow row source q children a = (.ok (), a')) :
    ∀ c ∈ children, Grouped p answers a' c
      (if c.info.source = source then (feeds c).add [some q] row else feeds c) := by
  induction children generalizing a with
  | nil => simp
  | cons c rest ihrest =>
    rw [List.flatMap_cons, List.nodup_append'] at hids
    obtain ⟨-, hrestids, hdisjoint⟩ := hids
    have hrest {a₁ : Arena} (hg : ∀ c ∈ rest, Grouped p answers a₁ c (feeds c))
        (h : LoadTree.absorbBelow row source q rest a₁ = (.ok (), a')) :=
      ihrest (fun c' hc' => ih c' (List.mem_cons_of_mem _ hc')) hrestids hg h
    -- What the later children add does not concern the first one, and the other way round.
    have hkeep {a₁ : Arena} {feed : Feed}
        (h : LoadTree.absorbBelow row source q rest a₁ = (.ok (), a'))
        (hc : Grouped p answers a₁ c feed) : Grouped p answers a' c feed := by
      refine (LoadTree.absorbBelow_extends h).grouped (fun id hid => ?_) hc
      rintro ⟨c', hc', hread⟩
      exact hdisjoint hid (List.mem_flatMap.mpr ⟨c', hc', hread.mem_ids⟩)
    have hfirst := hg c List.mem_cons_self
    have hothers : ∀ c' ∈ rest, Grouped p answers a c' (feeds c') :=
      fun c' hc' => hg c' (List.mem_cons_of_mem _ hc')
    unfold LoadTree.absorbBelow at h
    rw [List.forall_mem_cons]
    split at h
    · rename_i hsource
      split at h
      · cases h
      · rename_i a₁ h₁
        rw [if_pos hsource]
        refine ⟨hkeep h (ih c List.mem_cons_self hsource hfirst h₁), hrest (fun c' hc' => ?_) h⟩
        refine (LoadTree.absorb_extends hsource h₁).grouped (fun id hid hread => ?_) (hothers c' hc')
        exact hdisjoint hread.mem_ids (List.mem_flatMap.mpr ⟨c', hc', hid⟩)
    · rename_i hsource
      rw [if_neg hsource]
      exact ⟨hkeep h hfirst, hrest hothers h⟩

/-- Folding a row below a parent adds it to the rows that belong there. No batch that is opened in the
tree may have rows yet, since they would belong to the records that the row makes as well. -/
theorem Grouped.absorb (hids : t.ids.Nodup) (hsource : t.info.source = source)
    (hanswers : ∀ u ∈ t.subtrees, ∀ i, u.info.source = .batch i → u.info.source ≠ source →
      answers i = [])
    (hg : Grouped p answers a t feed) (h : t.absorb row source parent a = (.ok (), a')) :
    Grouped p answers a' t (feed.add [parent] row) := by
  induction t using LoadTree.induction generalizing parent a a' feed with
  | node n children ih =>
    rw [LoadTree.ids_node, List.nodup_cons] at hids
    obtain ⟨hn, hbelowids⟩ := hids
    have htop : a.GroupedAt n feed := hg.groupedAt
    have hbelow : ∀ c ∈ children, Grouped p answers a c (a.feedBelow p answers n feed c.info) :=
      fun c hc => hg.children hc
    have hchild : ∀ c ∈ children, ∀ {parent : Option Nat} {a a' : Arena} {feed : Feed},
        c.info.source = source → Grouped p answers a c feed →
        c.absorb row source parent a = (.ok (), a') →
        Grouped p answers a' c (feed.add [parent] row) := by
      intro c hc parent a a' feed hcsource hcg hcabsorb
      refine ih c hc ?_ hcsource ?_ hcg hcabsorb
      · exact (List.nodup_flatMap.mp hbelowids).1 c hc
      · exact fun u hu => hanswers u (LoadTree.mem_subtrees_node.mpr (.inr ⟨c, hc, hu⟩))
    have hnotBelow (id : Nat) (hid : ∃ c ∈ children, c.ReadFrom source id) : id ≠ n.id := by
      rintro rfl
      obtain ⟨c, hc, hread⟩ := hid
      exact hn (List.mem_flatMap.mpr ⟨c, hc, hread.mem_ids⟩)
    -- The rest is the same whether the record was there or is new.
    have hfinish {a₁ : Arena} {q : Nat} (htop₁ : a₁.GroupedAt n (feed.add [parent] row))
        (hext : a.Extends a₁ (· = n.id))
        (hfeed : ∀ c ∈ children, a₁.feedBelow p answers n (feed.add [parent] row) c.info =
          if c.info.source = n.source then (a.feedBelow p answers n feed c.info).add [some q] row
          else a.feedBelow p answers n feed c.info)
        (h₁ : LoadTree.absorbBelow row source q children a₁ = (.ok (), a')) :
        Grouped p answers a' (.node n children) (feed.add [parent] row) := by
      have hext' := LoadTree.absorbBelow_extends h₁
      have hnself : ¬ ∃ c ∈ children, c.ReadFrom source n.id := fun hid => hnotBelow _ hid rfl
      refine .node (hext'.groupedAt hnself htop₁) fun c hc => ?_
      rw [hext'.feedBelow_eq htop₁.inStep hnself, hfeed c hc]
      have hkept : ∀ c ∈ children, Grouped p answers a₁ c (a.feedBelow p answers n feed c.info) := by
        intro c hc
        refine hext.grouped (fun id hid heq => hn ?_) (hbelow c hc)
        exact heq ▸ List.mem_flatMap.mpr ⟨c, hc, hid⟩
      have hall := Grouped.absorbBelow hchild hbelowids hkept h₁ c hc
      rwa [← show n.source = source from hsource] at hall
    unfold LoadTree.absorb at h
    split at h
    · cases h
    · rename_i h₁
      cases h
      rcases Node.absorb_ok htop.inStep h₁ with ⟨-, hkey, rfl⟩ | ⟨_, _, hfound, -⟩
      · refine .node (htop.add_of_none hkey) fun c hc => ?_
        rw [feedBelow_add_of_none hkey]
        exact hbelow c hc
      · cases hfound
    · rename_i q a₁ h₁
      rcases Node.absorb_ok htop.inStep h₁ with ⟨hfound, -⟩ | ⟨key, q', hfound, hkey, hcase⟩
      · cases hfound
      · obtain rfl : q = q' := Option.some.inj hfound
        rcases hcase with ⟨rfl, e, he, hekey⟩ | ⟨hnew, rfl, rfl⟩
        · exact hfinish (htop.add_known hkey he hekey) (.refl ..)
            (fun c _ => htop.feedBelow_add_known hkey he hekey) h
        · refine hfinish (htop.add_new hkey hnew) (.push rfl) (fun c hc => ?_) h
          apply htop.feedBelow_add_new hkey hnew
          intro i hi hne
          refine hanswers c ?_ i hi (hsource ▸ hne)
          exact LoadTree.mem_subtrees_of_mem_children (t := .node n children) hc

end Arena

end EagerLoad
