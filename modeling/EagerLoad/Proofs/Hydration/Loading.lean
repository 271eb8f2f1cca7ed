import EagerLoad.Proofs.Hydration.Stages
import EagerLoad.Proofs.Playing

/-!
# Loading is nested grouping

A run of a plan puts the primary statement and then its batches. Whatever comes back, the result of a run
that succeeds is the nested grouping of the rows.
-/

namespace EagerLoad

open Sql Arena

/-- Prepared answers that reply to successive statements with some rows. -/
def Replies : List Response → List (List Row) → Prop
  | _, [] => True
  | responses, rows :: rest =>
    Response.answer .fetchAll responses.head? = .ok rows ∧ Replies responses.tail rest

/-- Every prepared answer replies with its rows. -/
theorem replies_map_rows (replies : List (List Row)) : Replies (replies.map .rows) replies := by
  induction replies with
  | nil => trivial
  | cons rows rest ih => exact ⟨rfl, ih⟩

/-- The statements that are put, each with the rows that come back. -/
abbrev Transcript := List (Select × List Row)

/-- The calls of a transcript. -/
def Transcript.calls (transcript : Transcript) : List (Call × Query) :=
  transcript.map fun put => (.fetchAll, put.1.render)

/-- The rows that come back in a transcript. -/
def Transcript.replies (transcript : Transcript) : List (List Row) :=
  transcript.map (·.2)

variable {p : Plan} {answers : Nat → List Row} {a a' : Arena} {primary rows : List Row}
  {responses : List Response} {transcript : Transcript} {batches : List (Batch × Nat)}

/-- A run of some batches that succeeds. Each is passed over, or put and its rows folded. -/
inductive Plan.Runs (p : Plan) : List (Batch × Nat) → Arena → Transcript → Arena → Prop
  | done {a : Arena} : Runs p [] a [] a
  | passed {b : Batch} {i : Nat} {rest : List (Batch × Nat)} {a a' : Arena} {transcript : Transcript} :
    p.prepareBatch b a = none → Runs p rest a transcript a' → Runs p ((b, i) :: rest) a transcript a'
  | put {b : Batch} {i : Nat} {rest : List (Batch × Nat)} {a a₁ a' : Arena} {transcript : Transcript}
    {pending : PendingBatch} {rows : List Row} : p.prepareBatch b a = some pending →
    p.absorbBatch i b pending rows a = (.ok (), a₁) → Runs p rest a₁ transcript a' →
    Runs p ((b, i) :: rest) a ((pending.statement, rows) :: transcript) a'

namespace Transaction

/-- An operation in two steps succeeds exactly if both steps do. -/
theorem play_bind_eq_ok {α β : Type} {x : Transaction α} {next : α → Transaction β} {b : β}
    {asked : List (Call × Query)} {unused : List Response} :
    (x >>= next).run.play responses = ⟨.ok b, asked, unused⟩ ↔
      ∃ a asked₁ middle asked₂, x.run.play responses = ⟨.ok a, asked₁, middle⟩ ∧
        (next a).run.play middle = ⟨.ok b, asked₂, unused⟩ ∧ asked = asked₁ ++ asked₂ := by
  rw [play_bind]
  obtain ⟨result, asked₁, middle⟩ := x.run.play responses
  cases result with
  | error e => simp
  | ok a =>
    rw [Played.andThen_ok, Played.mk.injEq]
    constructor
    · rintro ⟨hresult, rfl, rfl⟩
      exact ⟨a, asked₁, middle, _, rfl, by rw [← hresult], rfl⟩
    · rintro ⟨_, _, _, asked₂, ⟨rfl, rfl, rfl⟩, hnext, rfl⟩
      rw [hnext]
      exact ⟨rfl, rfl, rfl⟩

/-- A statement is answered with rows if these are the next prepared answer. -/
theorem play_ask_eq_ok {query : Query} {rows : List Row} {asked : List (Call × Query)}
    {unused : List Response} :
    (Transaction.ask .fetchAll query).run.play responses = ⟨.ok rows, asked, unused⟩ ↔
      Response.answer .fetchAll responses.head? = .ok rows ∧ asked = [(.fetchAll, query)] ∧
        unused = responses.tail := by
  rw [play_ask, Played.mk.injEq, eq_comm (a := [(Call.fetchAll, query)]), eq_comm (a := responses.tail)]

/-- A hydration step succeeds if it does for the arena. -/
theorem play_hydrate_eq_ok {step : Hydrate Unit} {asked : List (Call × Query)}
    {unused : List Response} :
    (Transaction.hydrate step a).run.play responses = ⟨.ok a', asked, unused⟩ ↔
      step a = (.ok (), a') ∧ asked = [] ∧ unused = responses := by
  unfold Transaction.hydrate
  split
  · rename_i hstep
    simp [hstep, ofExcept, Dialogue.play, ExceptT.run, ExceptT.mk]
  · rename_i hstep
    simp [hstep, ofExcept, Dialogue.play, ExceptT.run, ExceptT.mk, eq_comm]

end Transaction

/-- Putting batches succeeds exactly in a run whose rows are the prepared answers. -/
theorem Plan.play_loadBatches {asked : List (Call × Query)} {unused : List Response} :
    (p.loadBatches batches a).run.play responses = ⟨.ok a', asked, unused⟩ ↔
      ∃ transcript, p.Runs batches a transcript a' ∧ Replies responses transcript.replies ∧
        asked = transcript.calls ∧ unused = responses.drop transcript.length := by
  induction batches generalizing a responses asked unused with
  | nil =>
    have hplay : (p.loadBatches [] a).run.play responses = ⟨.ok a, [], responses⟩ := rfl
    rw [hplay]
    constructor
    · intro h
      cases h
      exact ⟨[], .done, trivial, rfl, rfl⟩
    · rintro ⟨transcript, hruns, -, rfl, rfl⟩
      cases hruns
      rfl
  | cons entry rest ih =>
    obtain ⟨b, i⟩ := entry
    rw [Plan.loadBatches]
    cases hprepare : p.prepareBatch b a with
    | none =>
      refine ih.trans ⟨?_, ?_⟩
      · rintro ⟨transcript, hruns, h⟩
        exact ⟨transcript, .passed hprepare hruns, h⟩
      · rintro ⟨transcript, hruns, h⟩
        cases hruns with
        | passed _ hruns => exact ⟨transcript, hruns, h⟩
        | put hpending => simp [hprepare] at hpending
    | some pending =>
      constructor
      · intro h
        obtain ⟨rows, _, _, _, hask, hrest, rfl⟩ := Transaction.play_bind_eq_ok.mp h
        obtain ⟨hanswer, rfl, rfl⟩ := Transaction.play_ask_eq_ok.mp hask
        obtain ⟨a₁, _, _, _, hhydrate, hload, rfl⟩ := Transaction.play_bind_eq_ok.mp hrest
        obtain ⟨hfold, rfl, rfl⟩ := Transaction.play_hydrate_eq_ok.mp hhydrate
        obtain ⟨transcript, hruns, hreplies, rfl, rfl⟩ := ih.mp hload
        refine ⟨(pending.statement, rows) :: transcript, .put hprepare hfold hruns,
          ⟨hanswer, hreplies⟩, rfl, ?_⟩
        rw [List.drop_tail]
        rfl
      · rintro ⟨transcript, hruns, hreplies, rfl, rfl⟩
        cases hruns with
        | passed hnone => simp [hprepare] at hnone
        | @put _ _ _ _ _ _ transcript _ _ hpending hfold hruns =>
          obtain rfl := Option.some.inj (hprepare.symm.trans hpending)
          have hload := ih.mpr ⟨transcript, hruns, hreplies.2, rfl, rfl⟩
          have hrest := Transaction.play_bind_eq_ok.mpr
            ⟨_, _, _, _, Transaction.play_hydrate_eq_ok.mpr ⟨hfold, rfl, rfl⟩, hload, rfl⟩
          rw [List.length_cons, ← List.drop_tail]
          exact Transaction.play_bind_eq_ok.mpr
            ⟨_, _, _, _, Transaction.play_ask_eq_ok.mpr ⟨hreplies.1, rfl, rfl⟩, hrest, rfl⟩

/-- Loading succeeds exactly if the primary rows are folded and there is a run of the batches after it. -/
theorem Plan.play_load {statement : Select} {records : List Json} {asked : List (Call × Query)}
    {unused : List Response} :
    (p.load statement).run.play responses = ⟨.ok records, asked, unused⟩ ↔
      ∃ primary transcript a a', p.absorbPrimaries primary .empty = (.ok (), a) ∧
        p.Runs p.batches.zipIdx a transcript a' ∧ records = p.finish a' ∧
        Replies responses (Transcript.replies ((statement, primary) :: transcript)) ∧
        asked = Transcript.calls ((statement, primary) :: transcript) ∧
        unused = responses.drop (transcript.length + 1) := by
  constructor
  · intro h
    obtain ⟨primary, _, _, _, hask, hrest, rfl⟩ := Transaction.play_bind_eq_ok.mp h
    obtain ⟨hanswer, rfl, rfl⟩ := Transaction.play_ask_eq_ok.mp hask
    obtain ⟨a, _, _, _, hhydrate, hrest, rfl⟩ := Transaction.play_bind_eq_ok.mp hrest
    obtain ⟨hfold, rfl, rfl⟩ := Transaction.play_hydrate_eq_ok.mp hhydrate
    obtain ⟨a', _, _, _, hload, hdone, rfl⟩ := Transaction.play_bind_eq_ok.mp hrest
    obtain ⟨transcript, hruns, hreplies, rfl, rfl⟩ := Plan.play_loadBatches.mp hload
    cases hdone
    refine ⟨primary, transcript, a, a', hfold, hruns, rfl, ⟨hanswer, hreplies⟩, ?_, ?_⟩
    · simp [Transcript.calls]
    · rw [List.drop_tail]
  · rintro ⟨primary, transcript, a, a', hfold, hruns, rfl, hreplies, rfl, rfl⟩
    have hload := Plan.play_loadBatches.mpr ⟨transcript, hruns, hreplies.2, rfl, rfl⟩
    rw [Plan.load, ← List.drop_tail]
    refine Transaction.play_bind_eq_ok.mpr ⟨primary, _, _, transcript.calls,
      Transaction.play_ask_eq_ok.mpr ⟨hreplies.1, rfl, rfl⟩, ?_, rfl⟩
    refine Transaction.play_bind_eq_ok.mpr ⟨a, _, _, transcript.calls,
      Transaction.play_hydrate_eq_ok.mpr ⟨hfold, rfl, rfl⟩, ?_, rfl⟩
    exact Transaction.play_bind_eq_ok.mpr ⟨a', _, _, [], hload, rfl, by simp⟩

/-- The columns of the records below which a batch is loaded. -/
def Plan.Parents (p : Plan) (primary : List Row) (answers : Nat → List Row) (b : Batch)
    (values : KeyMap Value) : Prop :=
  ∃ parent, p.parentOf b = some parent ∧ values ∈ p.recordsOf answers parent p.tree primary

/-- What is put for the batches of a list. A batch is put for the keys of its parent records, and
`answers i` is what comes back for batch `i`; it is passed over if there is no key. -/
inductive Plan.Answered (p : Plan) (primary : List Row) (answers : Nat → List Row) :
    List (Batch × Nat) → Transcript → Prop
  | done : Answered p primary answers [] []
  | passed {b : Batch} {i : Nat} {rest : List (Batch × Nat)} {transcript : Transcript} :
    answers i = [] →
    (∀ values, p.Parents primary answers b values → completeKey values b.parentColumns = none) →
    Answered p primary answers rest transcript →
    Answered p primary answers ((b, i) :: rest) transcript
  | put {b : Batch} {i : Nat} {rest : List (Batch × Nat)} {transcript : Transcript}
    {keys : List (List Value)} : b.Asks (p.Parents primary answers b) keys →
    Answered p primary answers rest transcript →
    Answered p primary answers ((b, i) :: rest) ((b.forParents keys, answers i) :: transcript)

/-- What was put for one of the batches. -/
theorem Plan.Answered.of_mem {b : Batch} {i : Nat} (h : p.Answered primary answers batches transcript)
    (reply : Select → List Row) (hreply : ∀ e ∈ transcript, e.2 = reply e.1) (hmem : (b, i) ∈ batches) :
    (answers i = [] ∧
        ∀ values, p.Parents primary answers b values → completeKey values b.parentColumns = none) ∨
      ∃ keys, b.Asks (p.Parents primary answers b) keys ∧ answers i = reply (b.forParents keys) := by
  induction h with
  | done => exact absurd hmem List.not_mem_nil
  | passed hnone hincomplete _ ih =>
    rcases List.mem_cons.mp hmem with heq | hmem
    · cases heq
      exact .inl ⟨hnone, hincomplete⟩
    · exact ih hreply hmem
  | put hasks _ ih =>
    rcases List.mem_cons.mp hmem with heq | hmem
    · cases heq
      exact .inr ⟨_, hasks, hreply _ List.mem_cons_self⟩
    · exact ih (fun e he => hreply e (List.mem_cons_of_mem _ he)) hmem

/-- The records of a node that is read from an early statement are there before later ones are put. -/
theorem Plan.Stage.parents_iff (hp : p.Staged) {final : Nat} (hstage : p.Stage primary final answers a')
    {position : Nat} {m : LoadTree} (hm : m ∈ p.tree.subtrees) (hlt : m.info.source.position < position)
    (hext : a.Extends a' (p.ReadSince position)) {b : Batch} (hparent : p.parentOf b = some m.info.id)
    (values : KeyMap Value) : p.Parents primary answers b values ↔
      ∃ r ∈ a.records, r.node = m.info.id ∧ values = r.values := by
  have hkind : ¬ p.ReadSince position m.info.id := by
    rintro ⟨u, hu, hid, hle⟩
    obtain rfl := LoadTree.eq_of_id_eq hp.ids hu hm hid
    omega
  have hsame : (∃ r ∈ a'.records, r.node = m.info.id ∧ values = r.values) ↔
      ∃ r ∈ a.records, r.node = m.info.id ∧ values = r.values := by
    constructor
    · rintro ⟨r, hr, hnode, rfl⟩
      obtain ⟨q, hq⟩ := List.getElem?_of_mem hr
      have hq := hext.getElem?_of_not hq (hnode ▸ hkind)
      exact ⟨r, List.mem_of_getElem? hq, hnode, rfl⟩
    · rintro ⟨r, hr, hnode, rfl⟩
      obtain ⟨q, hq⟩ := List.getElem?_of_mem hr
      exact ⟨r, List.mem_of_getElem? (hext.getElem? hq), hnode, rfl⟩
  have hids : m.info.id ∈ p.tree.ids := LoadTree.ids_subset hm (LoadTree.id_mem_ids m)
  rw [← hsame]
  constructor
  · rintro ⟨parent, hparent', hmem⟩
    obtain rfl := Option.some.inj (hparent.symm.trans hparent')
    exact ((Plan.mem_recordsOf_tree hstage.grouped).mp hmem).2
  · intro h
    exact ⟨_, hparent, (Plan.mem_recordsOf_tree hstage.grouped).mpr ⟨hids, h⟩⟩

/-- The first of the remaining entries of a numbered list. -/
theorem of_cons_eq_drop_zipIdx {α : Type} {l : List α} {next i : Nat} {x : α} {rest : List (α × Nat)}
    (h : (x, i) :: rest = l.zipIdx.drop next) :
    next < l.length ∧ i = next ∧ l[next]? = some x ∧ rest = l.zipIdx.drop (next + 1) := by
  have hlt : next < l.zipIdx.length := by
    by_contra hge
    rw [List.drop_eq_nil_of_le (by omega)] at h
    cases h
  rw [List.drop_eq_getElem_cons hlt] at h
  obtain ⟨hentry, hrest⟩ := List.cons.inj h
  rw [List.length_zipIdx] at hlt
  simp only [List.getElem_zipIdx, Nat.zero_add, Prod.mk.injEq] at hentry
  exact ⟨hlt, hentry.2, by rw [List.getElem?_eq_getElem hlt, hentry.1], hrest⟩

/-- A batch names the node that opened it. -/
def Plan.NamesOpener (p : Plan) (i : Nat) (b : Batch) : Prop :=
  ∃ m ∈ p.tree.subtrees, ∃ u ∈ m.children, u.info.id = b.node ∧ u.info.source = .batch i ∧
    u.info.source ≠ m.info.source

/-- A run of the batches from some stage on completes the last stage, and puts each batch for the keys of
its parents. Nothing comes back for a batch that names a node which did not open it. -/
theorem Plan.Runs.answered (hp : p.Staged) {next : Nat} (hruns : p.Runs batches a transcript a')
    (hbatches : batches = p.batches.zipIdx.drop next) (hnext : next ≤ p.batches.length)
    (hstage : p.Stage primary next answers a) :
    ∃ answers', (∀ i, i < next → answers' i = answers i) ∧
      p.Stage primary p.batches.length answers' a' ∧ a.Extends a' (p.ReadSince (next + 1)) ∧
      p.Answered primary answers' batches transcript ∧
      ∀ b i, (b, i) ∈ batches → p.NamesOpener i b ∨ answers' i = [] := by
  induction hruns generalizing next answers with
  | done =>
    have hlast : next = p.batches.length := by
      have hlength := congrArg List.length hbatches
      simp only [List.length_nil, List.length_drop, List.length_zipIdx] at hlength
      omega
    subst hlast
    exact ⟨answers, fun _ _ => rfl, hstage, .refl .., .done, fun _ _ h => absurd h List.not_mem_nil⟩
  | @passed b i rest a a' transcript hprepare _ ih =>
    obtain ⟨hlt, rfl, hb, hrest⟩ := of_cons_eq_drop_zipIdx hbatches
    have hstage' : p.Stage primary (i + 1) answers a :=
      ⟨hstage.grouped, hstage.nodes, fun j hj => hstage.waiting j (by omega)⟩
    obtain ⟨answers', hanswers, hfinal, hext, hanswered, hnames⟩ := ih hrest hlt hstage'
    obtain ⟨m, hm, u, hu, hid, hsource, hfound, hparent⟩ := hp.batch hb
    have hparentOf : p.parentOf b = some m.info.id := by
      rw [Plan.parentOf, hfound]
      exact hparent
    have hposition : m.info.source.position < i + 1 + 1 := by
      have hle := hp.position_le hm (LoadTree.mem_subtrees_of_mem_children hu)
      rw [hsource] at hle
      exact Nat.lt_succ_of_le hle
    have hnone : answers' i = [] := by
      rw [hanswers i (by omega), hstage.waiting i le_rfl]
    refine ⟨answers', fun j hj => hanswers j (by omega), hfinal,
      hext.mono fun id hid => hid.mono (by omega), .passed hnone ?_ hanswered, ?_⟩
    · intro values hvalues
      obtain ⟨r, hr, hnode, rfl⟩ :=
        (hfinal.parents_iff hp hm hposition hext hparentOf values).mp hvalues
      exact Plan.prepareBatch_eq_none hparentOf hprepare r hr hnode
    · intro c j hj
      rcases List.mem_cons.mp hj with heq | hj
      · cases heq
        exact .inr hnone
      · exact hnames c j hj
  | @put b i rest a a₁ a' transcript pending rows hprepare hfold _ ih =>
    obtain ⟨hlt, rfl, hb, hrest⟩ := of_cons_eq_drop_zipIdx hbatches
    obtain ⟨m, hm, u, hu, hid, hsource, hopened, hparentOf⟩ := hstage.opened hp hb hprepare
    obtain ⟨-, keys, hstatement, hasks⟩ := Plan.prepareBatch_eq_some hparentOf hprepare
    obtain ⟨hstage', hext₁⟩ := hstage.put hp hb hprepare hfold
    obtain ⟨answers', hanswers, hfinal, hext₂, hanswered, hnames⟩ := ih hrest hlt hstage'
    have hext : a.Extends a' (p.ReadSince (i + 1)) :=
      hext₁.trans (hext₂.mono fun id hid => hid.mono (by omega))
    have hposition : m.info.source.position < i + 1 := by
      rcases hp.source m hm u hu with heq | ⟨j, hj, hle⟩
      · exact absurd heq hopened
      · rw [hsource] at hj
        cases hj
        exact Nat.lt_succ_of_le hle
    have hparents : (fun values => ∃ r ∈ a.records, r.node = m.info.id ∧ values = r.values) =
        p.Parents primary answers' b :=
      funext fun values => propext
        (hfinal.parents_iff hp hm hposition hext hparentOf values).symm
    refine ⟨answers', fun j hj => ?_, hfinal, hext, ?_, fun c j hj => ?_⟩
    · rw [hanswers j (by omega), Function.update_of_ne (by omega)]
    · have hrows : answers' i = rows := by
        rw [hanswers i (by omega), Function.update_self]
      rw [hstatement, ← hrows]
      rw [hparents] at hasks
      exact .put hasks hanswered
    · rcases List.mem_cons.mp hj with heq | hj
      · cases heq
        exact .inl ⟨m, hm, u, hu, hid, hsource, hopened⟩
      · exact hnames c j hj

/-- Folding the primary rows and running the batches gives the nested grouping of the rows. -/
theorem Plan.Staged.finish_eq_nest (hp : p.Staged)
    (hfold : p.absorbPrimaries primary .empty = (.ok (), a))
    (hruns : p.Runs p.batches.zipIdx a transcript a') :
    ∃ answers, p.Answered primary answers p.batches.zipIdx transcript ∧
      (∀ b i, (b, i) ∈ p.batches.zipIdx → p.NamesOpener i b ∨ answers i = []) ∧
      p.finish a' = p.nest answers p.tree primary := by
  obtain ⟨answers, -, hstage, -, hanswered, hnames⟩ :=
    hruns.answered hp List.drop_zero.symm (Nat.zero_le _) (hp.stage_zero hfold)
  exact ⟨answers, hanswered, hnames, Plan.finish_eq_nest hstage.grouped hstage.nodes⟩

/-- Loading a compiled plan puts the statement and then its batches, and makes of the rows that come back
their nested grouping over the tree of the plan. -/
theorem load_eq_nest {s : Schema} {r : Request} (hcompile : s.compile r = .ok p) {statement : Select}
    {records : List Json} {asked : List (Call × Query)} {unused : List Response}
    (hload : (p.load statement).run.play responses = ⟨.ok records, asked, unused⟩) :
    ∃ primary answers transcript,
      asked = Transcript.calls ((statement, primary) :: transcript) ∧
      Replies responses (Transcript.replies ((statement, primary) :: transcript)) ∧
      p.Answered primary answers p.batches.zipIdx transcript ∧
      records = p.nest answers p.tree primary := by
  have hp := Schema.compile_staged hcompile
  obtain ⟨primary, transcript, a, a', hfold, hruns, rfl, hreplies, hasked, -⟩ := Plan.play_load.mp hload
  obtain ⟨answers, hanswered, -, hnest⟩ := hp.finish_eq_nest hfold hruns
  exact ⟨primary, answers, transcript, hasked, hreplies, hanswered, hnest⟩

/-- A role and one of its users, as they come back for a plan that loads roles with users. -/
def editors : List Response :=
  [.rows [.ofValues [("r0.uuid", .text "a"), ("r0.name", .text "editor")]],
    .rows [.ofValues [("u1.__link0", .text "a"), ("u1.uuid", .text "c"), ("u1.name", .text "Eve"),
      ("u1.role_uuid", .text "a")]]]

/-- Roles with all their users. -/
theorem forum_load_eq_nest :
    ∃ p records asked unused,
      forum.compile { Request.forModel "Role" with relations := ["users"], limit := none } = .ok p ∧
      (p.load p.primary).run.play editors = ⟨.ok records, asked, unused⟩ ∧
      ∃ primary answers transcript,
        asked = Transcript.calls ((p.primary, primary) :: transcript) ∧
        Replies editors (Transcript.replies ((p.primary, primary) :: transcript)) ∧
        p.Answered primary answers p.batches.zipIdx transcript ∧
        records = p.nest answers p.tree primary := by
  have hrun : ∃ p,
      forum.compile { Request.forModel "Role" with relations := ["users"], limit := none } = .ok p ∧
      ∃ records, ((p.load p.primary).run.play editors).result = .ok records :=
    ⟨_, by cbv, _, by rfl⟩
  obtain ⟨p, hcompile, records, hresult⟩ := hrun
  have hload : (p.load p.primary).run.play editors =
      ⟨.ok records, ((p.load p.primary).run.play editors).asked,
        ((p.load p.primary).run.play editors).unused⟩ := by rw [← hresult]
  exact ⟨p, records, _, _, hcompile, hload, load_eq_nest hcompile hload⟩

end EagerLoad
