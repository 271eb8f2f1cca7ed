import EagerLoad.Proofs.Plan.Caching

/-!
# What a cache key holds of a request

Requests for declared models have equal keys exactly if they have the same shape: the same model, relations,
ordering, bound, key of the root and adjustments, where the order in which relations are named and their
repetition do not count.
-/

namespace EagerLoad

open Sql

namespace Request

/-- Requests that ask for the same, with their relations in any order and repeated or not. -/
structure SameShape (r r' : Request) : Prop where
  model : r.model = r'.model
  relations : ∀ name, name ∈ r.relations ↔ name ∈ r'.relations
  ordering : r.ordering = r'.ordering
  limit : r.limit = r'.limit
  selfKey : r.selfKey = r'.selfKey
  adjustments : r.adjustments = r'.adjustments

theorem fingerprint_congr {r r' : Request} (h : r.adjustments = r'.adjustments) :
    r.fingerprint = r'.fingerprint := by
  unfold fingerprint
  rw [h]

end Request

variable {s : Schema} {r r' : Request} {key key' : CacheKey}

/-- A request for a declared model has a key. -/
theorem exists_cacheKey (h : ∃ e ∈ s.entities, e.name = r.model) : ∃ key, s.cacheKey r = .ok key := by
  obtain ⟨root, hroot⟩ := Schema.exists_entityNamed.mpr h
  exact ⟨_, bind_eq_ok.mpr ⟨root, hroot, rfl⟩⟩

/-- Requests of one shape have the same key. -/
theorem Request.SameShape.key_eq (h : r.SameShape r') (hkey : s.cacheKey r = .ok key)
    (hkey' : s.cacheKey r' = .ok key') : key = key' := by
  obtain ⟨root, hroot, rfl⟩ := cacheKey_eq_ok hkey
  obtain ⟨root', hroot', rfl⟩ := cacheKey_eq_ok hkey'
  obtain rfl : root = root' := Except.ok.inj (hroot.symm.trans (h.model ▸ hroot'))
  have hrelations : r.relationNames = r'.relationNames := sortedNames_eq_iff.mpr h.relations
  rw [hrelations, h.ordering, h.limit, h.selfKey, Request.fingerprint_congr h.adjustments]

/-- Requests with the same key have one shape. -/
theorem Request.sameShape_of_key (hlegible : Legible (r.leaves ++ r'.leaves))
    (hkey : s.cacheKey r = .ok key) (hkey' : s.cacheKey r' = .ok key) : r.SameShape r' := by
  obtain ⟨root, hroot, rfl⟩ := cacheKey_eq_ok hkey
  obtain ⟨root', hroot', heq⟩ := cacheKey_eq_ok hkey'
  obtain ⟨hsame, hrelations, hordering, hlimit, hselfKey, hfingerprint⟩ := CacheKey.mk.inj heq
  obtain rfl : root = root' := Fin.ext hsame
  constructor
  case model => exact (Schema.entityNamed_eq_ok hroot).symm.trans (Schema.entityNamed_eq_ok hroot')
  case relations => exact sortedNames_eq_iff.mp hrelations
  case ordering => exact hordering
  case limit => exact hlimit
  case selfKey => exact hselfKey
  case adjustments =>
    exact adjustments_eq_of_fingerprint hlegible (List.subset_append_left _ _)
      (List.subset_append_right _ _) hfingerprint

/-- Requests for declared models have keys, and these are equal exactly if the requests have the same shape.
The parts of adjustments that are told apart by nothing but their texts are taken to be told apart by these. -/
theorem cacheKey_eq_iff_sameShape (hmodel : ∃ e ∈ s.entities, e.name = r.model)
    (hmodel' : ∃ e ∈ s.entities, e.name = r'.model) (hlegible : Legible (r.leaves ++ r'.leaves)) :
    ∃ key key', s.cacheKey r = .ok key ∧ s.cacheKey r' = .ok key' ∧ (key = key' ↔ r.SameShape r') := by
  obtain ⟨key, hkey⟩ := exists_cacheKey hmodel
  obtain ⟨key', hkey'⟩ := exists_cacheKey hmodel'
  refine ⟨key, key', hkey, hkey', fun heq => ?_, fun hshape => hshape.key_eq hkey hkey'⟩
  exact Request.sameShape_of_key hlegible hkey (heq ▸ hkey')

/-- Users with some relations, and of their posts those of a title, or not of it, that is given as a value. -/
def titledPosts (relations : List String) (title : Value) : Request :=
  { Request.forModel "User" with relations }.adjust "posts"
    (.or [.compare (.bare "title") .equal title, .not (.isNull (.of "t\", name: " "title") true)])

/-- A title that reads like the end of one description and the start of another. -/
def cuttingTitle : String :=
  "a\"), Null \x7b column: \", "

/-- A text in an array has another key than in an array of JSON, although it looks like the end of a
description. The order of the relations does not count. -/
theorem titledPosts_keys : ∃ key key' key'',
    forum.cacheKey (titledPosts ["posts", "role"] (.array [.text cuttingTitle])) = .ok key ∧
      forum.cacheKey (titledPosts ["role", "posts", "role"] (.array [.text cuttingTitle])) = .ok key' ∧
      forum.cacheKey (titledPosts ["posts", "role"] (.json (.arr [.str cuttingTitle]))) = .ok key'' ∧
      key = key' ∧ key ≠ key'' := by
  have hmodel (relations : List String) (title : Value) :
      ∃ e ∈ forum.entities, e.name = (titledPosts relations title).model := by
    change ∃ e ∈ forum.entities, e.name = "User"
    decide
  have hlegible : Legible ((titledPosts ["posts", "role"] (.array [.text cuttingTitle])).leaves ++
      (titledPosts ["role", "posts", "role"] (.array [.text cuttingTitle])).leaves) := by
    change Legible []
    simp [Legible]
  have hlegible' : Legible ((titledPosts ["posts", "role"] (.array [.text cuttingTitle])).leaves ++
      (titledPosts ["posts", "role"] (.json (.arr [.str cuttingTitle]))).leaves) := by
    change Legible []
    simp [Legible]
  have hnames (name : String) : name ∈ ["posts", "role"] ↔ name ∈ ["role", "posts", "role"] := by
    simp only [List.mem_cons, List.not_mem_nil, or_false]
    tauto
  obtain ⟨key, key', hkey, hkey', halike⟩ := cacheKey_eq_iff_sameShape (hmodel _ _) (hmodel _ _) hlegible
  obtain ⟨_, key'', hfirst, hkey'', hother⟩ := cacheKey_eq_iff_sameShape (hmodel _ _) (hmodel _ _) hlegible'
  obtain rfl := Except.ok.inj (hkey.symm.trans hfirst)
  refine ⟨key, key', key'', hkey, hkey', hkey'', halike.mpr ⟨rfl, hnames, rfl, rfl, rfl, rfl⟩, ?_⟩
  intro heq
  have hadjustments := congrArg (·.entries) (hother.mp heq).adjustments
  simp [titledPosts, Request.adjust, Request.forModel, KeyMap.insert, KeyMap.empty, KeyMap.get?,
    insertEntry] at hadjustments

end EagerLoad
