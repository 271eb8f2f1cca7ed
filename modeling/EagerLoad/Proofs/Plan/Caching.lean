import EagerLoad.Plan.Cache
import EagerLoad.Proofs.Description.Fingerprint
import EagerLoad.Proofs.Plan.Shape

/-!
# The plan cache is transparent

Whatever was asked before, a cache answers a request with the plan that compiling this very request gives,
or with the same error. A request is compiled from what its key holds: the relations only by their sorted
names, and the adjustments only by their description, which tells them apart as far as the texts of their
leaves do.
-/

namespace EagerLoad

open Sql

/-- The leaves of the values in the adjustments of a request. -/
def Request.leaves (r : Request) : List Value :=
  r.adjustments.entries.flatMap fun entry => entry.2.leaves

section Keys

variable {s : Schema} {r r' : Request} {parts : List Value}

theorem describeConditions_clear (conditions : KeyMap Condition) :
    (describeConditions conditions).Clear :=
  .dictionary (.inl rfl) (List.forall_mem_map.mpr fun entry _ => entry.2.clear)

/-- Adjustments with the same fingerprint are equal. -/
theorem adjustments_eq_of_fingerprint (h : Legible parts) (hr : r.leaves ⊆ parts)
    (hr' : r'.leaves ⊆ parts) (heq : r.fingerprint = r'.fingerprint) :
    r.adjustments = r'.adjustments := by
  have hentries : r.adjustments.entries = r'.adjustments.entries := by
    unfold Request.fingerprint at heq
    split at heq <;> split at heq
    · rename_i hempty hempty'
      rw [List.isEmpty_iff.mp hempty, List.isEmpty_iff.mp hempty']
    · cases heq
    · cases heq
    · have htext := (describeConditions_clear _).eq_of_text (describeConditions_clear _)
        (Option.some.inj heq)
      simp only [describeConditions, Description.dictionary.injEq, true_and] at htext
      refine eq_of_map_eq (fun x hx y hy hxy => ?_) htext
      obtain ⟨hname, hcondition⟩ := Prod.mk.inj hxy
      exact Prod.ext hname (Condition.eq_of_describe h (part_subset hr hx) (part_subset hr' hy) hcondition)
  cases hadjustments : r.adjustments
  cases hadjustments' : r'.adjustments
  simp_all

/-- Walking a path does not depend on the model and the relations of a request. -/
theorem walk_congr (hordering : r.ordering = r'.ordering) (hlimit : r.limit = r'.limit)
    (hselfKey : r.selfKey = r'.selfKey) (hadjustments : r.adjustments = r'.adjustments) (current : Node)
    (d : Draft) (path : List s.RelationId) : s.walk r current d path = s.walk r' current d path := by
  induction path generalizing current d with
  | nil => rfl
  | cons id rest ih =>
    have hhop : s.hop r current id = s.hop r' current id := by
      unfold Schema.hop
      rw [hadjustments]
    have hattach : (s.hop r current id).attach r d = (s.hop r' current id).attach r' d := by
      unfold Hop.attach Hop.place
      rw [hhop, hordering, hlimit, hselfKey]
    unfold Schema.walk
    rw [hattach]
    simp only [ih]

/-- The key of a request, taken apart. -/
theorem cacheKey_eq_ok {key : CacheKey} (h : s.cacheKey r = .ok key) :
    ∃ root : s.EntityId, s.entityNamed r.model = .ok root ∧
      key = ⟨root, r.relationNames, r.ordering, r.limit, r.selfKey, r.fingerprint⟩ := by
  obtain ⟨root, hroot, h⟩ := bind_eq_ok.mp h
  cases h
  exact ⟨root, hroot, rfl⟩

/-- Requests with equal keys compile alike. -/
theorem compile_congr (h : Legible parts) (hr : r.leaves ⊆ parts) (hr' : r'.leaves ⊆ parts)
    {key : CacheKey} (hkey : s.cacheKey r = .ok key) (hkey' : s.cacheKey r' = .ok key) :
    s.compile r = s.compile r' := by
  obtain ⟨root, hroot, rfl⟩ := cacheKey_eq_ok hkey
  obtain ⟨root', hroot', heq⟩ := cacheKey_eq_ok hkey'
  obtain ⟨hsame, hrelations, hordering, hlimit, hselfKey, hfingerprint⟩ := CacheKey.mk.inj heq
  obtain rfl : root = root' := Fin.ext hsame
  have hadjustments := adjustments_eq_of_fingerprint h hr hr' hfingerprint
  unfold Schema.compile
  rw [hroot, hroot', hrelations, hselfKey]
  simp only [walk_congr hordering hlimit hselfKey hadjustments]

/-- A request without a key does not compile, and fails alike. -/
theorem compile_of_cacheKey_error {e : Error} (h : s.cacheKey r = .error e) :
    s.compile r = .error e := by
  unfold Schema.cacheKey at h
  unfold Schema.compile
  cases hroot : s.entityNamed r.model with
  | error e' =>
    rw [hroot] at h
    cases h
    rfl
  | ok root =>
    rw [hroot] at h
    cases h

end Keys

namespace PlanCache

variable {cache cache' : PlanCache} {key : CacheKey} {stored : StoredPlan}

theorem get?_congr (h : cache.entries = cache'.entries) : cache.get? key = cache'.get? key := by
  unfold get?
  rw [h]

/-- What is found under a key is an entry of this key. -/
theorem mem_of_get? (h : cache.get? key = some stored) : (key, stored.plan) ∈ cache.entries := by
  obtain ⟨entry, hentry, rfl⟩ := Option.map_eq_some_iff.mp h
  obtain ⟨hlt, hget⟩ := List.getElem?_eq_some_iff.mp hentry
  have hkey : entry.1 = key := by
    have hfound := List.findIdx_getElem (w := hlt)
    simpa [hget] using hfound
  rw [← hkey]
  exact List.mem_of_getElem? hentry

/-- Entries that come later do not change what is found. -/
theorem get?_append {later : List (CacheKey × Plan)} (h : cache.get? key = some stored)
    (hentries : cache'.entries = cache.entries ++ later) : cache'.get? key = some stored := by
  have hmem := mem_of_get? h
  unfold get? at h ⊢
  have hfound : ∃ entry ∈ cache.entries, (decide (entry.1 = key)) = true := ⟨_, hmem, by simp⟩
  have hlt := List.findIdx_lt_length.mpr hfound
  simp only [hentries, List.findIdx_append, if_pos hlt, List.getElem?_append_left hlt]
  exact h

/-- A new entry is found under its key. -/
theorem get?_stored {plan : Plan} (h : cache.get? key = none)
    (hentries : cache'.entries = cache.entries ++ [(key, plan)]) :
    cache'.get? key = some ⟨cache.entries.length, plan⟩ := by
  unfold get? at h ⊢
  have hge := List.getElem?_eq_none_iff.mp (Option.map_eq_none_iff.mp h)
  simp [hentries, List.findIdx_append, Nat.not_lt.mpr hge, List.findIdx_cons]

end PlanCache

namespace Schema

variable {s : Schema} {r r' : Request} {cache cache' : PlanCache}

/-- What answering a request does: the plan stored under its key is found, or else the plan that compiling
the request gives is stored; a failure leaves the entries as they are. -/
theorem planFor_cases (s : Schema) (r : Request) (cache : PlanCache) :
    (∃ e, s.compile r = .error e ∧ (s.planFor r cache).1 = .error e ∧
      (s.planFor r cache).2.entries = cache.entries) ∨
    ∃ key, s.cacheKey r = .ok key ∧
      ((∃ stored, cache.get? key = some stored ∧ (s.planFor r cache).1 = .ok stored ∧
          (s.planFor r cache).2.entries = cache.entries) ∨
        ∃ plan, cache.get? key = none ∧ s.compile r = .ok plan ∧
          (s.planFor r cache).1 = .ok ⟨cache.entries.length, plan⟩ ∧
          (s.planFor r cache).2.entries = cache.entries ++ [(key, plan)]) := by
  cases hkey : s.cacheKey r with
  | error e => exact .inl ⟨e, compile_of_cacheKey_error hkey, by simp [planFor, hkey]⟩
  | ok key =>
    cases hfound : cache.get? key with
    | some stored =>
      exact .inr ⟨key, rfl, .inl ⟨stored, hfound, by simp [planFor, hkey, getOrCompile, hfound]⟩⟩
    | none =>
      cases hcompile : s.compile r with
      | error e => exact .inl ⟨e, rfl, by simp [planFor, hkey, getOrCompile, hfound, hcompile]⟩
      | ok plan =>
        have hstill : PlanCache.get? { cache with misses := cache.misses + 1 } key = none := hfound
        exact .inr ⟨key, rfl, .inr ⟨plan, hfound, rfl, by
          simp [planFor, hkey, getOrCompile, hfound, hcompile, PlanCache.store, hstill]⟩⟩

/-- A cache after requests were answered from it, one after the other. -/
def cacheAfter (s : Schema) (cache : PlanCache) (requests : List Request) : PlanCache :=
  requests.foldl (fun cache r => (s.planFor r cache).2) cache

/-- Answering requests only adds entries. -/
theorem entries_cacheAfter (s : Schema) (cache : PlanCache) (requests : List Request) :
    ∃ later, (s.cacheAfter cache requests).entries = cache.entries ++ later := by
  induction requests generalizing cache with
  | nil => exact ⟨[], (List.append_nil _).symm⟩
  | cons r rest ih =>
    obtain ⟨later, hlater⟩ := ih (s.planFor r cache).2
    have hstep : ∃ added, (s.planFor r cache).2.entries = cache.entries ++ added := by
      rcases s.planFor_cases r cache with ⟨_, -, -, h⟩ | ⟨_, -, ⟨_, -, -, h⟩ | ⟨_, -, -, -, h⟩⟩
      · exact ⟨[], by simpa using h⟩
      · exact ⟨[], by simpa using h⟩
      · exact ⟨_, h⟩
    obtain ⟨added, hadded⟩ := hstep
    exact ⟨added ++ later, by rw [← List.append_assoc, ← hadded]; exact hlater⟩

/-- A cache whose entries were compiled for some of the given requests. -/
def Serves (s : Schema) (requests : List Request) (cache : PlanCache) : Prop :=
  ∀ entry ∈ cache.entries, ∃ r ∈ requests, s.cacheKey r = .ok entry.1 ∧ s.compile r = .ok entry.2

/-- An answer stores nothing but the plan of its own request. -/
theorem Serves.planFor {requests : List Request} (h : s.Serves requests cache) (r : Request) :
    s.Serves (requests ++ [r]) (s.planFor r cache).2 := by
  have hkeep : s.Serves (requests ++ [r]) cache := fun entry hentry => by
    obtain ⟨r', hr', hserved⟩ := h entry hentry
    exact ⟨r', List.mem_append_left _ hr', hserved⟩
  unfold Serves
  rcases s.planFor_cases r cache with
    ⟨_, -, -, hentries⟩ | ⟨key, hkey, ⟨_, -, -, hentries⟩ | ⟨plan, -, hplan, -, hentries⟩⟩
  · rw [hentries]
    exact hkeep
  · rw [hentries]
    exact hkeep
  · rw [hentries]
    intro entry hentry
    rcases List.mem_append.mp hentry with hentry | hentry
    · exact hkeep entry hentry
    · obtain rfl := List.mem_singleton.mp hentry
      exact ⟨r, List.mem_append_right _ List.mem_cons_self, hkey, hplan⟩

/-- Every entry was compiled for a request that was answered before. -/
theorem serves_cacheAfter (s : Schema) (requests : List Request) :
    s.Serves requests (s.cacheAfter .empty requests) := by
  have hrun : ∀ (rest before : List Request) (cache : PlanCache), s.Serves before cache →
      s.Serves (before ++ rest) (s.cacheAfter cache rest) := by
    intro rest
    induction rest with
    | nil =>
      intro before cache h
      rwa [List.append_nil]
    | cons r rest ih =>
      intro before cache h
      rw [List.append_cons]
      exact ih _ _ (h.planFor r)
  exact hrun requests [] .empty (by simp [Serves, PlanCache.empty])

/-- A cache that was compiled for some requests answers any other request as if it were compiled. -/
theorem Serves.map_planFor {requests : List Request} {parts : List Value} (h : s.Serves requests cache)
    (hlegible : Legible parts) (hr : r.leaves ⊆ parts) (hrequests : requests.flatMap Request.leaves ⊆ parts) :
    (s.planFor r cache).1.map (·.plan) = s.compile r := by
  rcases s.planFor_cases r cache with
    ⟨e, hcompile, hanswer, -⟩ | ⟨key, hkey, ⟨stored, hget, hanswer, -⟩ | ⟨plan, -, hcompile, hanswer, -⟩⟩
  · rw [hanswer, hcompile]
    rfl
  · obtain ⟨r₀, hr₀, hkey₀, hcompile₀⟩ := h _ (PlanCache.mem_of_get? hget)
    rw [hanswer, compile_congr hlegible hr (part_subset hrequests hr₀) hkey hkey₀, hcompile₀]
    rfl
  · rw [hanswer, hcompile]
    rfl

/-- A plan that is stored under the key of a request answers it. -/
theorem planFor_of_get? {key : CacheKey} {stored : StoredPlan} (hkey : s.cacheKey r = .ok key)
    (h : cache.get? key = some stored) : (s.planFor r cache).1 = .ok stored := by
  simp [planFor, hkey, getOrCompile, h]

/-- After any requests, a request is answered with the plan that compiling it gives, or with the same
error. A failure stores nothing. Later requests with the same key are answered with the same stored
plan. -/
theorem planFor_eq_compile {before : List Request} (h : Legible ((r :: before).flatMap Request.leaves))
    (hcache : cache = s.cacheAfter .empty before) :
    (s.planFor r cache).1.map (·.plan) = s.compile r ∧
      (∀ e, (s.planFor r cache).1 = .error e → (s.planFor r cache).2.entries = cache.entries) ∧
      ∀ stored, (s.planFor r cache).1 = .ok stored →
        ∀ later r', s.cacheKey r' = s.cacheKey r →
          (s.planFor r' (s.cacheAfter (s.planFor r cache).2 later)).1 = .ok stored := by
  -- What the answer leaves under its key stays there.
  have hlater {key : CacheKey} {stored : StoredPlan} (hkey : s.cacheKey r = .ok key)
      (hget : (s.planFor r cache).2.get? key = some stored) (later : List Request) (r' : Request)
      (hsame : s.cacheKey r' = s.cacheKey r) :
      (s.planFor r' (s.cacheAfter (s.planFor r cache).2 later)).1 = .ok stored := by
    obtain ⟨added, hadded⟩ := s.entries_cacheAfter (s.planFor r cache).2 later
    exact planFor_of_get? (hsame.trans hkey) (PlanCache.get?_append hget hadded)
  rcases s.planFor_cases r cache with
    ⟨e, hcompile, hanswer, hentries⟩ |
      ⟨key, hkey, ⟨stored, hget, hanswer, hentries⟩ | ⟨plan, hnone, hcompile, hanswer, hentries⟩⟩
  · refine ⟨by rw [hanswer, hcompile]; rfl, fun _ _ => hentries, fun stored hstored => ?_⟩
    rw [hanswer] at hstored
    cases hstored
  · have hserved := serves_cacheAfter s before
    rw [← hcache] at hserved
    obtain ⟨r₀, hr₀, hkey₀, hcompile₀⟩ := hserved _ (PlanCache.mem_of_get? hget)
    have hcompile : s.compile r = s.compile r₀ := compile_congr h
      (part_subset (List.Subset.refl _) List.mem_cons_self)
      (part_subset (List.Subset.refl _) (List.mem_cons_of_mem _ hr₀)) hkey hkey₀
    refine ⟨by rw [hanswer, hcompile, hcompile₀]; rfl, fun _ _ => hentries, fun stored' hstored => ?_⟩
    rw [hanswer] at hstored
    cases hstored
    exact hlater hkey ((PlanCache.get?_congr hentries).trans hget)
  · refine ⟨by rw [hanswer, hcompile]; rfl, fun e herror => ?_, fun stored hstored => ?_⟩
    · rw [hanswer] at herror
      cases herror
    · rw [hanswer] at hstored
      cases hstored
      exact hlater hkey (PlanCache.get?_stored hnone hentries)

end Schema

/-- Users with some relations, and of their posts those of a title past a day. -/
def datedPosts (relations : List String) (day : Nat) : Request :=
  { Request.forModel "User" with relations }.adjust "posts"
    (.compare (.bare "title") .greater (.date ⟨2024, 1, day⟩))

/-- The days in adjustments are told apart by their texts. -/
theorem legible_datedPosts : Legible ([datedPosts ["posts", "role"] 1,
    datedPosts ["posts", "role"] 2].flatMap Request.leaves) := by
  have hleaves : [datedPosts ["posts", "role"] 1, datedPosts ["posts", "role"] 2].flatMap
      Request.leaves = [.date ⟨2024, 1, 1⟩, .date ⟨2024, 1, 2⟩] := rfl
  have hne : (Value.date ⟨2024, 1, 1⟩).describe.text ≠ (Value.date ⟨2024, 1, 2⟩).describe.text := by cbv
  rw [hleaves]
  simp [Legible, hne, hne.symm]

/-- After a request for another day, a request gets the plan that compiling it gives, and so does one that
names the same relations in another order. -/
theorem forum_planFor_eq_compile :
    let cache := forum.cacheAfter .empty [datedPosts ["posts", "role"] 2]
    let answer := forum.planFor (datedPosts ["posts", "role"] 1) cache
    ∃ stored, answer.1 = .ok stored ∧
      forum.compile (datedPosts ["posts", "role"] 1) = .ok stored.plan ∧
      (forum.planFor (datedPosts ["role", "posts", "role"] 1) answer.2).1 = .ok stored := by
  intro cache answer
  have hcompile : ∃ p, forum.compile (datedPosts ["posts", "role"] 1) = .ok p := ⟨_, by cbv⟩
  have hkey : forum.cacheKey (datedPosts ["role", "posts", "role"] 1) =
      forum.cacheKey (datedPosts ["posts", "role"] 1) := by cbv
  obtain ⟨p, hp⟩ := hcompile
  obtain ⟨hplan, -, hlater⟩ := Schema.planFor_eq_compile legible_datedPosts rfl
  cases hanswer : answer.1 with
  | error e =>
    rw [hanswer, hp] at hplan
    cases hplan
  | ok stored =>
    rw [hanswer] at hplan
    exact ⟨stored, rfl, hplan.symm, hlater stored hanswer [] _ hkey⟩

end EagerLoad
