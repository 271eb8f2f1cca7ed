import EagerLoad.Proofs.Plan.Caching

/-!
# Compiling may use the cache

While a plan is compiled, other calls may be made on the same cache, also for the same key, and they may
compile in turn. However calls nest, every call is counted once, and the plan that is stored first under a
key is the one that every successful call for this key returns.
-/

namespace EagerLoad

/-- What is done with a plan cache: calls, of which each may depend on the answers to those before it, and
a result. To compile a plan is to do such things. -/
inductive CacheClient where
  | done (result : Except Error Plan)
  | get (key : CacheKey) (next : Option StoredPlan → CacheClient)
  | getOrCompile (key : CacheKey) (compile : CacheClient) (next : Except Error StoredPlan → CacheClient)

/-- A call on a plan cache with its answer. -/
inductive CacheCall where
  | get (key : CacheKey) (found : Option StoredPlan)
  /-- What was compiled, if the call did compile, and the answer. -/
  | getOrCompile (key : CacheKey) (compiled : Option (Except Error Plan)) (answer : Except Error StoredPlan)

namespace CacheCall

/-- The key that is asked for. -/
def key : CacheCall → CacheKey
  | .get key _ => key
  | .getOrCompile key _ _ => key

/-- The plan that is returned. -/
def plan? : CacheCall → Option StoredPlan
  | .get _ found => found
  | .getOrCompile _ _ answer => answer.toOption

/-- Whether the call compiles what it does not find. -/
def mayCompile : CacheCall → Bool
  | .get _ _ => false
  | .getOrCompile _ _ _ => true

/-- Whether the call did compile. -/
def compiles : CacheCall → Bool
  | .getOrCompile _ (some _) _ => true
  | _ => false

/-- Whether the call compiled and that failed. -/
def failed : CacheCall → Bool
  | .getOrCompile _ (some (.error _)) _ => true
  | _ => false

/-- Whether the call compiles what it does not find, and returned a plan. -/
def succeeded : CacheCall → Bool
  | .getOrCompile _ _ (.ok _) => true
  | _ => false

/-- How the answer to a call comes from the cache before it and from what is compiled. -/
inductive Fits (before after : PlanCache) : CacheCall → Prop
  | get {key : CacheKey} (same : after = before) : Fits before after (.get key (before.get? key))
  /-- What is stored is returned, and nothing is compiled. -/
  | hit {key : CacheKey} {stored : StoredPlan} (found : before.get? key = some stored)
    (same : after.entries = before.entries) : Fits before after (.getOrCompile key none (.ok stored))
  /-- Where compiling fails, its error is returned. -/
  | failed {key : CacheKey} {e : Error} (missed : before.get? key = none) :
    Fits before after (.getOrCompile key (some (.error e)) (.error e))
  /-- What was stored while a plan was compiled is returned in its place. -/
  | redundant {key : CacheKey} {plan : Plan} {stored : StoredPlan} (missed : before.get? key = none)
    (meanwhile : after.get? key = some stored) :
    Fits before after (.getOrCompile key (some (.ok plan)) (.ok stored))
  /-- The plan that was compiled is stored behind all others, and returned. -/
  | stored {key : CacheKey} {plan : Plan} {earlier : List (CacheKey × Plan)}
    (missed : before.get? key = none) (fresh : key ∉ earlier.map (·.1))
    (added : after.entries = earlier ++ [(key, plan)]) :
    Fits before after (.getOrCompile key (some (.ok plan)) (.ok ⟨earlier.length, plan⟩))

end CacheCall

/-- A call with the cache when it was made and when it returned. -/
structure CacheEvent where
  call : CacheCall
  before : PlanCache
  after : PlanCache

/-- The number of calls of a kind. -/
def callCount (kind : CacheCall → Bool) (log : List CacheEvent) : Nat :=
  log.countP fun e => kind e.call

theorem callCount_append (kind : CacheCall → Bool) (l m : List CacheEvent) :
    callCount kind (l ++ m) = callCount kind l + callCount kind m :=
  List.countP_append

theorem callCount_singleton (kind : CacheCall → Bool) (e : CacheEvent) :
    callCount kind [e] = if kind e.call then 1 else 0 :=
  List.countP_singleton

/-- The keys for which calls that compile succeeded. -/
def succeededKeys (log : List CacheEvent) : List CacheKey :=
  (log.filter (·.call.succeeded)).map (·.call.key)

theorem succeededKeys_append (l m : List CacheEvent) :
    succeededKeys (l ++ m) = succeededKeys l ++ succeededKeys m := by
  rw [succeededKeys, List.filter_append, List.map_append]
  rfl

namespace PlanCache

/-- A cache that counts one more hit. -/
def countHit (cache : PlanCache) : PlanCache :=
  { cache with hits := cache.hits + 1 }

/-- A cache that counts one more miss. -/
def countMiss (cache : PlanCache) : PlanCache :=
  { cache with misses := cache.misses + 1 }

/-- A cache that counts one more plan that was compiled in vain. -/
def countRedundant (cache : PlanCache) : PlanCache :=
  { cache with redundant := cache.redundant + 1 }

/-- A cache with one more plan. -/
def add (cache : PlanCache) (key : CacheKey) (plan : Plan) : PlanCache :=
  { cache with entries := cache.entries ++ [(key, plan)] }

/-- The keys of the stored plans, in the order in which these were stored. -/
def keys (cache : PlanCache) : List CacheKey :=
  cache.entries.map (·.1)

/-- What is stored stays where it is, and new plans come after it. -/
def Keeps (before after : PlanCache) : Prop :=
  before.entries <+: after.entries

end PlanCache

namespace CacheClient

/-- What a client does to a cache, with its result. -/
def run : CacheClient → Cached Plan
  | .done result, cache => (result, cache)
  | .get key next, cache => (next (cache.get? key)).run cache
  | .getOrCompile key compile next, cache =>
    let returned := EagerLoad.getOrCompile key compile.run cache
    (next returned.1).run returned.2

/-- The calls that a client makes, those made to compile among them, in the order in which they return. -/
def log : CacheClient → PlanCache → List CacheEvent
  | .done _, _ => []
  | .get key next, cache =>
    ⟨.get key (cache.get? key), cache, cache⟩ :: (next (cache.get? key)).log cache
  | .getOrCompile key compile next, cache =>
    let nested := match cache.get? key with
      | some _ => []
      | none => compile.log cache.countMiss
    let compiled := match cache.get? key with
      | some _ => none
      | none => some (compile.run cache.countMiss).1
    let returned := EagerLoad.getOrCompile key compile.run cache
    nested ++ ⟨.getOrCompile key compiled returned.1, cache, returned.2⟩ :: (next returned.1).log returned.2

end CacheClient

/-- What calls make of a cache. A call that misses returns after the calls that were made to compile. -/
inductive PlanCache.Passes : PlanCache → List CacheEvent → PlanCache → Prop
  | nil {a : PlanCache} : Passes a [] a
  | append {a b c : PlanCache} {l m : List CacheEvent} : Passes a l b → Passes b m c → Passes a (l ++ m) c
  | get {a : PlanCache} {key : CacheKey} : Passes a [⟨.get key (a.get? key), a, a⟩] a
  | hit {a : PlanCache} {key : CacheKey} {stored : StoredPlan} : a.get? key = some stored →
    Passes a [⟨.getOrCompile key none (.ok stored), a, a.countHit⟩] a.countHit
  | failed {a c : PlanCache} {l : List CacheEvent} {key : CacheKey} {e : Error} :
    a.get? key = none → Passes a.countMiss l c →
    Passes a (l ++ [⟨.getOrCompile key (some (.error e)) (.error e), a, c⟩]) c
  /-- A plan was stored under the key while another one was compiled. -/
  | redundant {a c : PlanCache} {l : List CacheEvent} {key : CacheKey} {plan : Plan} {stored : StoredPlan} :
    a.get? key = none → Passes a.countMiss l c → c.get? key = some stored →
    Passes a (l ++ [⟨.getOrCompile key (some (.ok plan)) (.ok stored), a, c.countRedundant⟩]) c.countRedundant
  | stored {a c : PlanCache} {l : List CacheEvent} {key : CacheKey} {plan : Plan} :
    a.get? key = none → Passes a.countMiss l c → c.get? key = none →
    Passes a (l ++ [⟨.getOrCompile key (some (.ok plan)) (.ok ⟨c.entries.length, plan⟩), a,
      c.add key plan⟩]) (c.add key plan)

variable {a b c : PlanCache} {l m : List CacheEvent} {e e' : CacheEvent} {key : CacheKey}
  {stored : StoredPlan}

/-- A client makes of a cache what its calls make of it. -/
theorem CacheClient.passes (client : CacheClient) (cache : PlanCache) :
    cache.Passes (client.log cache) (client.run cache).2 := by
  induction client generalizing cache with
  | done result => exact .nil
  | get key next ih => exact .append (l := [_]) .get (ih _ cache)
  | getOrCompile key compile next ihcompile ih =>
    rw [log, run, List.append_cons]
    refine .append ?_ (ih _ _)
    unfold EagerLoad.getOrCompile
    cases hfound : cache.get? key with
    | some stored => exact .hit hfound
    | none =>
      have hcompile := ihcompile cache.countMiss
      obtain ⟨result, c, hrun⟩ : ∃ result c, compile.run cache.countMiss = (result, c) := ⟨_, _, rfl⟩
      have hstart : compile.run { cache with misses := cache.misses + 1 } = (result, c) := hrun
      rw [hrun] at hcompile
      simp only [hrun, hstart]
      cases result with
      | error e => exact .failed hfound hcompile
      | ok plan =>
        dsimp only [PlanCache.store]
        cases hmeanwhile : c.get? key with
        | some stored => exact .redundant hfound hcompile hmeanwhile
        | none => exact .stored hfound hcompile hmeanwhile

namespace PlanCache

theorem Keeps.refl (a : PlanCache) : a.Keeps a :=
  List.prefix_refl _

theorem Keeps.trans (h : a.Keeps b) (h' : b.Keeps c) : a.Keeps c :=
  List.IsPrefix.trans h h'

theorem keeps_add (a : PlanCache) (key : CacheKey) (plan : Plan) : a.Keeps (a.add key plan) :=
  List.prefix_append _ _

/-- What is found under a key is found there later. -/
theorem Keeps.get? (h : a.Keeps b) (hget : a.get? key = some stored) : b.get? key = some stored := by
  obtain ⟨later, hlater⟩ := h
  exact get?_append hget hlater.symm

/-- Nothing is found exactly under the keys of no entry. -/
theorem get?_eq_none : a.get? key = none ↔ key ∉ a.keys := by
  constructor
  · intro hnone hmem
    obtain ⟨entry, hentry, rfl⟩ := List.mem_map.mp hmem
    have hlt : (a.entries.findIdx fun other => other.1 = entry.1) < a.entries.length :=
      List.findIdx_lt_length.mpr ⟨entry, hentry, decide_eq_true rfl⟩
    unfold get? at hnone
    have hge := List.getElem?_eq_none_iff.mp (Option.map_eq_none_iff.mp hnone)
    omega
  · intro hmem
    refine Option.eq_none_iff_forall_not_mem.mpr fun stored hstored => hmem ?_
    exact List.mem_map_of_mem (mem_of_get? hstored)

namespace Passes

/-- Calls keep what is stored. -/
theorem keeps (h : a.Passes l b) : a.Keeps b := by
  induction h with
  | nil => exact .refl _
  | append _ _ ih ih' => exact ih.trans ih'
  | get => exact .refl _
  | hit => exact .refl _
  | failed _ _ ih => exact ih
  | redundant _ _ _ ih => exact ih
  | stored _ _ _ ih => exact ih.trans (keeps_add _ _ _)

/-- A call returns to a cache that keeps what was stored before, and loses nothing afterwards. -/
theorem between (h : a.Passes l b) (he : e ∈ l) : a.Keeps e.after ∧ e.after.Keeps b := by
  -- A call that missed returns last.
  have hlast {a b c : PlanCache} {l : List CacheEvent} {last : CacheEvent} (hlast : last.after = b)
      (hpasses : a.countMiss.Passes l c) (hkeeps : c.Keeps b)
      (ih : e ∈ l → a.countMiss.Keeps e.after ∧ e.after.Keeps c) (he : e ∈ l ++ [last]) :
      a.Keeps e.after ∧ e.after.Keeps b := by
    subst hlast
    rcases List.mem_append.mp he with he | he
    · exact ⟨(ih he).1, (ih he).2.trans hkeeps⟩
    · obtain rfl := List.mem_singleton.mp he
      exact ⟨hpasses.keeps.trans hkeeps, .refl _⟩
  induction h with
  | nil => exact absurd he List.not_mem_nil
  | append h h' ih ih' =>
    rcases List.mem_append.mp he with he | he
    · exact ⟨(ih he).1, (ih he).2.trans h'.keeps⟩
    · exact ⟨h.keeps.trans (ih' he).1, (ih' he).2⟩
  | get =>
    obtain rfl := List.mem_singleton.mp he
    exact ⟨.refl _, .refl _⟩
  | hit =>
    obtain rfl := List.mem_singleton.mp he
    exact ⟨.refl _, .refl _⟩
  | failed _ h ih => exact hlast rfl h (.refl _) ih he
  | redundant _ h _ ih => exact hlast rfl h (.refl _) ih he
  | stored _ h _ ih => exact hlast rfl h (keeps_add _ _ _) ih he

/-- Of two calls, the cache to which the later one returns keeps what the earlier one left. -/
theorem ordered (h : a.Passes l b) : l.Pairwise fun e e' => e.after.Keeps e'.after := by
  have hlast {a b c : PlanCache} {l : List CacheEvent} {last : CacheEvent} (hlast : last.after = b)
      (hpasses : a.countMiss.Passes l c) (hkeeps : c.Keeps b)
      (ih : l.Pairwise fun e e' => e.after.Keeps e'.after) :
      (l ++ [last]).Pairwise fun e e' => e.after.Keeps e'.after := by
    subst hlast
    refine List.pairwise_append.mpr ⟨ih, List.pairwise_singleton _ _, fun e he e' he' => ?_⟩
    obtain rfl := List.mem_singleton.mp he'
    exact (hpasses.between he).2.trans hkeeps
  induction h with
  | nil => exact .nil
  | append h h' ih ih' =>
    exact List.pairwise_append.mpr ⟨ih, ih', fun e he e' he' =>
      (h.between he).2.trans (h'.between he').1⟩
  | get => exact List.pairwise_singleton _ _
  | hit => exact List.pairwise_singleton _ _
  | failed _ h ih => exact hlast rfl h (.refl _) ih
  | redundant _ h _ ih => exact hlast rfl h (.refl _) ih
  | stored _ h _ ih => exact hlast rfl h (keeps_add _ _ _) ih

/-- Every answer fits the cache and what was compiled. -/
theorem fits (h : a.Passes l b) : ∀ e ∈ l, e.call.Fits e.before e.after := by
  induction h with
  | nil => exact fun e he => absurd he List.not_mem_nil
  | append _ _ ih ih' => exact List.forall_mem_append.mpr ⟨ih, ih'⟩
  | get => exact List.forall_mem_singleton.mpr (.get rfl)
  | hit hfound => exact List.forall_mem_singleton.mpr (.hit hfound rfl)
  | failed hmissed _ ih =>
    exact List.forall_mem_append.mpr ⟨ih, List.forall_mem_singleton.mpr (.failed hmissed)⟩
  | redundant hmissed _ hmeanwhile ih =>
    exact List.forall_mem_append.mpr ⟨ih, List.forall_mem_singleton.mpr (.redundant hmissed hmeanwhile)⟩
  | stored hmissed _ hmeanwhile ih =>
    exact List.forall_mem_append.mpr ⟨ih, List.forall_mem_singleton.mpr
      (.stored hmissed (get?_eq_none.mp hmeanwhile) rfl)⟩

/-- New entries are plans that a call compiled for their key and returned from there. -/
theorem origin (h : a.Passes l b) : ∀ key stored, b.get? key = some stored → a.get? key = none →
    ∃ e ∈ l, e.call = .getOrCompile key (some (.ok stored.plan)) (.ok stored) := by
  induction h with
  | nil | get => exact fun key stored hget hnone => absurd (hnone.symm.trans hget) nofun
  | hit => exact fun key stored hget hnone => absurd (hnone.symm.trans hget) nofun
  | @append a b c l m hfirst hsecond ih ih' =>
    intro key stored hget hnone
    cases hmiddle : b.get? key with
    | none =>
      obtain ⟨e, he, hcall⟩ := ih' key stored hget hmiddle
      exact ⟨e, List.mem_append_right _ he, hcall⟩
    | some earlier =>
      obtain rfl : earlier = stored := Option.some.inj ((hsecond.keeps.get? hmiddle).symm.trans hget)
      obtain ⟨e, he, hcall⟩ := ih key earlier hmiddle hnone
      exact ⟨e, List.mem_append_left _ he, hcall⟩
  | failed _ _ ih | redundant _ _ _ ih =>
    intro key stored hget hnone
    obtain ⟨e, he, hcall⟩ := ih key stored hget hnone
    exact ⟨e, List.mem_append_left _ he, hcall⟩
  | @stored a c l own plan _ _ hmeanwhile ih =>
    intro key stored hget hnone
    by_cases hkey : key = own
    · subst hkey
      obtain rfl : _ = stored := Option.some.inj ((get?_stored hmeanwhile rfl).symm.trans hget)
      exact ⟨_, List.mem_append_right _ (List.mem_singleton_self _), rfl⟩
    · cases hbefore : c.get? key with
      | some earlier =>
        obtain rfl : earlier = stored :=
          Option.some.inj (((keeps_add c own plan).get? hbefore).symm.trans hget)
        obtain ⟨e, he, hcall⟩ := ih key earlier hbefore hnone
        exact ⟨e, List.mem_append_left _ he, hcall⟩
      | none =>
        -- the only new entry has another key
        have hmem : key ∈ (c.add own plan).keys := List.mem_map_of_mem (mem_of_get? hget)
        rw [keys, add, List.map_append, List.mem_append] at hmem
        rcases hmem with hmem | hmem
        · exact absurd hmem (get?_eq_none.mp hbefore)
        · exact absurd (List.mem_singleton.mp hmem) hkey

/-- Every call that compiles is counted as a miss. -/
theorem count_compiled (h : a.Passes l b) : b.misses = a.misses + callCount (·.compiles) l := by
  induction h with
  | nil => rfl
  | append _ _ ih ih' => rw [callCount_append, ih', ih, Nat.add_assoc]
  | get | hit => rfl
  | failed _ _ ih | redundant _ _ _ ih | stored _ _ _ ih =>
    simp only [callCount_append, callCount_singleton, CacheCall.compiles, countMiss, countRedundant, add,
      if_true] at ih ⊢
    omega

/-- Every call that may compile is counted as a hit or as a miss. -/
theorem count_calls (h : a.Passes l b) :
    b.hits + b.misses = a.hits + a.misses + callCount (·.mayCompile) l := by
  induction h with
  | nil => rfl
  | append _ _ ih ih' => rw [callCount_append, ih', ih, Nat.add_assoc]
  | get => rfl
  | hit => exact Nat.add_right_comm _ _ _
  | failed _ _ ih | redundant _ _ _ ih | stored _ _ _ ih =>
    simp only [callCount_append, callCount_singleton, CacheCall.mayCompile, countMiss, countRedundant,
      add, if_true] at ih ⊢
    omega

/-- Every miss ends in a stored plan, in one that is dropped, or in a failure. -/
theorem count_misses (h : a.Passes l b) :
    b.misses + a.entries.length + a.redundant =
      a.misses + b.entries.length + b.redundant + callCount (·.failed) l := by
  induction h with
  | nil => exact Nat.add_right_comm _ _ _ ▸ rfl
  | append _ _ ih ih' =>
    rw [callCount_append]
    omega
  | get => rfl
  | hit => rfl
  | failed _ _ ih | redundant _ _ _ ih | stored _ _ _ ih =>
    simp [callCount_append, callCount_singleton, CacheCall.failed, countMiss, countRedundant,
      add] at ih ⊢
    omega

/-- The keys of new plans are those for which calls succeeded, and no key gets a second plan. -/
theorem keys (h : a.Passes l b) : (a.keys.Nodup → b.keys.Nodup) ∧
    ∀ key, key ∈ b.keys ↔ key ∈ a.keys ∨ key ∈ succeededKeys l := by
  induction h with
  | nil => simp [succeededKeys]
  | append _ _ ih ih' =>
    refine ⟨fun hnodup => ih'.1 (ih.1 hnodup), fun key => ?_⟩
    rw [ih'.2, ih.2, succeededKeys_append, List.mem_append, or_assoc]
  | get => simp [succeededKeys, CacheCall.succeeded]
  | @hit a key stored hfound =>
    have hmem : key ∈ a.keys := List.mem_map_of_mem (mem_of_get? hfound)
    refine ⟨id, fun other => ⟨.inl, ?_⟩⟩
    rintro (hother | hother)
    · exact hother
    · obtain rfl := List.mem_singleton.mp hother
      exact hmem
  | @failed a c l key e _ _ ih =>
    have hnone : succeededKeys [⟨.getOrCompile key (some (.error e)) (.error e), a, c⟩] = [] := rfl
    rw [succeededKeys_append, hnone, List.append_nil]
    exact ih
  | @redundant a c l key plan stored _ _ hmeanwhile ih =>
    have hmem : key ∈ c.keys := List.mem_map_of_mem (mem_of_get? hmeanwhile)
    refine ⟨ih.1, fun other => (ih.2 other).trans ?_⟩
    rw [succeededKeys_append, List.mem_append]
    refine ⟨fun hother => hother.imp_right .inl, ?_⟩
    rintro (hother | hother | hother)
    · exact .inl hother
    · exact .inr hother
    · obtain rfl := List.mem_singleton.mp hother
      exact (ih.2 _).mp hmem
  | @stored a c l key plan _ _ hmeanwhile ih =>
    have hkeys : (c.add key plan).keys = c.keys ++ [key] := List.map_append
    have hnew := get?_eq_none.mp hmeanwhile
    refine ⟨fun hnodup => ?_, fun other => ?_⟩
    · rw [hkeys, List.nodup_append']
      exact ⟨ih.1 hnodup, List.nodup_singleton _, List.disjoint_singleton.mpr hnew⟩
    · rw [hkeys, List.mem_append, ih.2, succeededKeys_append, List.mem_append, or_assoc]
      rfl

end Passes

/-- The counters and the plans of a cache after the calls of a log. -/
structure Ledger (log : List CacheEvent) (cache : PlanCache) : Prop where
  /-- Every call that may compile is a hit or a miss, and a miss if it does compile. -/
  calls : cache.hits + cache.misses = callCount (·.mayCompile) log ∧
    cache.misses = callCount (·.compiles) log
  /-- What is compiled is stored or dropped, or compiling fails. -/
  misses : cache.misses = cache.entries.length + cache.redundant + callCount (·.failed) log
  /-- There is one plan for each key for which some call succeeded. -/
  entries : cache.entries.length = (succeededKeys log).dedup.length
  /-- Calls for one key return the same stored plan. -/
  agree : ∀ e ∈ log, ∀ e' ∈ log, e.call.key = e'.call.key → ∀ stored stored',
    e.call.plan? = some stored → e'.call.plan? = some stored' → stored = stored'
  /-- A plan that was returned is found from then on: when any later call returns, and in the end. -/
  kept : (∀ e ∈ log, ∀ stored, e.call.plan? = some stored →
      e.after.get? e.call.key = some stored ∧ cache.get? e.call.key = some stored) ∧
    log.Pairwise fun e e' => ∀ key stored, e.after.get? key = some stored →
      e'.after.get? key = some stored
  /-- Every answer fits the cache and what was compiled; looking up changes nothing. -/
  fits : ∀ e ∈ log, e.call.Fits e.before e.after
  /-- What is stored under a key was compiled by a call for this key, which returned it. -/
  origin : ∀ key stored, cache.get? key = some stored →
    ∃ e ∈ log, e.call = .getOrCompile key (some (.ok stored.plan)) (.ok stored)

end PlanCache

/-- A plan that is returned is stored under its key by then. -/
theorem CacheCall.Fits.returned {call : CacheCall} (h : call.Fits a b) (hplan : call.plan? = some stored) :
    b.get? call.key = some stored := by
  cases h with
  | get same => exact same ▸ hplan
  | @hit key stored' found same =>
    obtain rfl : stored' = stored := Option.some.inj hplan
    exact PlanCache.get?_append found (same.trans (List.append_nil _).symm)
  | failed => cases hplan
  | redundant _ meanwhile => exact meanwhile.trans hplan
  | @stored key plan earlier _ fresh added =>
    have hnone : (PlanCache.mk earlier 0 0 0).get? key = none := PlanCache.get?_eq_none.mpr fresh
    exact (PlanCache.get?_stored hnone added).trans hplan

/-- Whatever is done with a new cache, and however the calls nest that are made to compile, the counters
account for every call, and the plan stored first under a key is the one that is returned for it. -/
theorem CacheClient.ledger_run (client : CacheClient) :
    (client.run .empty).2.Ledger (client.log .empty) := by
  have hpasses := client.passes .empty
  obtain ⟨hnodup, hkeys⟩ := hpasses.keys
  have hstored {e : CacheEvent} (he : e ∈ client.log .empty) {stored : StoredPlan}
      (hplan : e.call.plan? = some stored) :
      (client.run .empty).2.get? e.call.key = some stored :=
    (hpasses.between he).2.get? ((hpasses.fits e he).returned hplan)
  constructor
  case calls =>
    exact ⟨by simpa [PlanCache.empty] using hpasses.count_calls,
      by simpa [PlanCache.empty] using hpasses.count_compiled⟩
  case misses => simpa [PlanCache.empty] using hpasses.count_misses
  case entries =>
    have hperm : (client.run .empty).2.keys.Perm (succeededKeys (client.log .empty)).dedup :=
      (List.perm_ext_iff_of_nodup (hnodup List.nodup_nil) (List.nodup_dedup _)).mpr fun key => by
        rw [hkeys, List.mem_dedup]
        exact or_iff_right List.not_mem_nil
    simpa [PlanCache.keys] using hperm.length_eq
  case agree =>
    intro e he e' he' hkey stored stored' hplan hplan'
    have hsame := hstored he hplan
    rw [hkey, hstored he' hplan'] at hsame
    exact (Option.some.inj hsame).symm
  case kept =>
    refine ⟨fun e he stored hplan =>
      ⟨(hpasses.fits e he).returned hplan, hstored he hplan⟩, ?_⟩
    exact hpasses.ordered.imp fun {e e'} hkeeps key stored hget =>
      PlanCache.Keeps.get? hkeeps hget
  case fits => exact hpasses.fits
  case origin => exact fun key stored hget => hpasses.origin key stored hget rfl

/-- A plan of roles is compiled, and meanwhile another one for the same key is compiled and stored; then
compiling for another key fails, and the first key is asked for again. -/
theorem nested_ledger : ∃ p q, forum.compile (.forModel "Role") = .ok p ∧
    forum.compile { Request.forModel "Role" with relations := ["users"] } = .ok q ∧
    let key : CacheKey := ⟨0, [], [], none, none, none⟩
    let client : CacheClient :=
      .getOrCompile key (.getOrCompile key (.done (.ok q)) fun _ => .done (.ok p)) fun _ =>
        .getOrCompile { key with root := 1 } (.done (.error (.query "refused"))) fun _ =>
          .getOrCompile key (.done (.ok p)) fun _ => .done (.ok p)
    (client.run .empty).2 = ⟨[(key, q)], 1, 3, 1⟩ ∧
      (client.log .empty).map (·.call.plan?) = [some ⟨0, q⟩, some ⟨0, q⟩, none, some ⟨0, q⟩] ∧
      (client.run .empty).2.Ledger (client.log .empty) := by
  obtain ⟨p, hp⟩ : ∃ p, forum.compile (.forModel "Role") = .ok p := ⟨_, by cbv⟩
  obtain ⟨q, hq⟩ : ∃ q, forum.compile { Request.forModel "Role" with relations := ["users"] } = .ok q :=
    ⟨_, by cbv⟩
  exact ⟨p, q, hp, hq, rfl, rfl, CacheClient.ledger_run _⟩

end EagerLoad
