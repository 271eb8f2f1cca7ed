import EagerLoad.Proofs.Plan.Caching
import EagerLoad.Session

/-!
# A session loads by the schema that it installed first

A session is asked to install schemas, for the installed schema, and for plans. Whatever was asked before, a
step is answered by the first schema that could be built: it is not replaced, and plans are those that
compiling the requests on it gives. Until there is one, the shared cache is not touched.
-/

namespace EagerLoad.Session

/-- What a session is asked for. -/
inductive Step where
  | install (build : Unit → Except Error Schema)
  | schema
  | plan (r : Request)

/-- What a step is answered. -/
inductive Answer where
  | installation (i : Installation)
  | schema (result : Except Error Schema)
  | plan (result : Except Error Plan)

namespace Step

/-- Ask a session. -/
def perform (session : Session) : Step → Answer × Session
  | .install build =>
    let (installation, session) := session.install build
    (.installation installation, session)
  | .schema => (.schema session.installed, session)
  | .plan r =>
    let (result, session) := session.planFor r
    (.plan (result.map (·.plan)), session)

/-- The answer by a schema that was installed before: it is not built again, and requests are compiled. -/
def answerBy (s : Schema) : Step → Answer
  | .install _ => .installation ⟨false, .ok s⟩
  | .schema => .schema (.ok s)
  | .plan r => .plan (s.compile r)

/-- The answer where no schema has been installed: one is built, and all else fails. -/
def answerWithout : Step → Answer
  | .install build => .installation ⟨true, build ()⟩
  | .schema => .schema (.error (.configuration "schema graph has not been installed"))
  | .plan _ => .plan (.error (.configuration "schema graph has not been installed"))

/-- The schema that a step can build. -/
def schema? : Step → Option Schema
  | .install build => (build ()).toOption
  | _ => none

/-- The request of a step. -/
def request? : Step → Option Request
  | .plan r => some r
  | _ => none

end Step

/-- The requests among some steps. -/
def requests (steps : List Step) : List Request :=
  steps.filterMap Step.request?

/-- The session after some steps. -/
def after (steps : List Step) : Session :=
  steps.foldl (fun session step => (step.perform session).2) start

/-- One of the steps was answered with this schema, which was built for it. -/
def Installed (steps : List Step) (s : Schema) : Prop :=
  ∃ before step later, steps = before ++ step :: later ∧
    (step.perform (after before)).1 = .installation ⟨true, .ok s⟩

/-- The first schema that some of the steps can build. -/
def firstBuilt (steps : List Step) : Option Schema :=
  steps.findSome? Step.schema?

/-- What holds of a session after some steps. -/
structure Invariant (steps : List Step) (session : Session) : Prop where
  /-- The first schema that could be built is installed. -/
  schema : session.schema = firstBuilt steps
  /-- Without a schema nothing was stored or counted. -/
  idle : session.schema = none → session.cache = .empty
  /-- What is stored was compiled for requests of the steps. -/
  serves : ∀ s, session.schema = some s → s.Serves (requests steps) session.cache

variable {steps before : List Step} {step : Step} {session : Session} {s : Schema}

theorem firstBuilt_append (steps : List Step) (step : Step) :
    firstBuilt (steps ++ [step]) = (firstBuilt steps).or step.schema? := by
  rw [firstBuilt, List.findSome?_append, List.findSome?_singleton]
  rfl

theorem after_append (steps : List Step) (step : Step) :
    after (steps ++ [step]) = (step.perform (after steps)).2 := by
  rw [after, List.foldl_append]
  rfl

theorem requests_append (steps : List Step) (step : Step) :
    requests (steps ++ [step]) = requests steps ++ step.request?.toList := by
  cases step <;> simp [requests, Step.request?]

/-- Without a schema, a step installs what it builds, and does nothing else. -/
theorem Step.perform_without (step : Step) (cache : PlanCache) :
    step.perform ⟨none, cache⟩ = (step.answerWithout, ⟨step.schema?, cache⟩) := by
  cases step with
  | install build =>
    simp only [perform, Session.install, answerWithout, schema?]
    cases build () <;> rfl
  | schema => rfl
  | plan r => rfl

/-- A step keeps an installed schema, and plans are made for requests alone. -/
theorem Step.session_perform (step : Step) (s : Schema) (cache : PlanCache) :
    (step.perform ⟨some s, cache⟩).2 = ⟨some s, s.cacheAfter cache step.request?.toList⟩ := by
  cases step <;> rfl

/-- Each step keeps what holds of a session. -/
theorem Invariant.perform (h : Invariant steps session) (step : Step) :
    Invariant (steps ++ [step]) (step.perform session).2 := by
  obtain ⟨schema, cache⟩ := session
  have hschema : schema = firstBuilt steps := h.schema
  have hbuilt := firstBuilt_append steps step
  rw [← hschema] at hbuilt
  cases schema with
  | none =>
    obtain rfl : cache = .empty := h.idle rfl
    rw [Step.perform_without]
    exact ⟨hbuilt.symm, fun _ => rfl, fun s _ => by simp [Schema.Serves, PlanCache.empty]⟩
  | some s =>
    have hserves := h.serves s rfl
    rw [Step.session_perform]
    refine ⟨hbuilt.symm, by simp, fun s' hs' => ?_⟩
    obtain rfl := Option.some.inj hs'
    rw [requests_append]
    cases step with
    | plan r => exact hserves.planFor r
    | install | schema => exact (List.append_nil (requests steps)).symm ▸ hserves

/-- So it holds after any steps. -/
theorem invariant_after (steps : List Step) : Invariant steps (after steps) := by
  induction steps using List.reverseRecOn with
  | nil => exact ⟨rfl, fun _ => rfl, fun s hs => by cases hs⟩
  | append_singleton steps step ih =>
    rw [after_append]
    exact ih.perform step

/-- A step after others is answered by the first schema that could be built, if there is one. -/
theorem answer_after (h : Legible ((requests (before ++ [step])).flatMap Request.leaves)) :
    (step.perform (after before)).1 =
      match firstBuilt before with
      | some s => step.answerBy s
      | none => step.answerWithout := by
  have hinvariant := invariant_after before
  rw [← hinvariant.schema]
  generalize after before = session at hinvariant
  obtain ⟨schema, cache⟩ := session
  cases schema with
  | none => rw [Step.perform_without]
  | some s =>
    cases step with
    | install | schema => rfl
    | plan r =>
      have hrequests : requests (before ++ [.plan r]) = requests before ++ [r] := requests_append before _
      rw [hrequests, List.flatMap_append] at h
      have hserves := hinvariant.serves s rfl
      have hanswer := hserves.map_planFor (r := r) h (by simp) (List.subset_append_left _ _)
      exact congrArg Answer.plan hanswer

/-- The schema that a step was answered with is the first that could be built. -/
theorem installed_iff : Installed steps s ↔ firstBuilt steps = some s := by
  have hbuilds {before : List Step} {step : Step} :
      (step.perform (after before)).1 = .installation ⟨true, .ok s⟩ ↔
        firstBuilt before = none ∧ step.schema? = some s := by
    rw [← (invariant_after before).schema]
    obtain ⟨schema, cache⟩ := after before
    cases schema with
    | none =>
      rw [Step.perform_without]
      cases step with
      | install build =>
        cases hbuild : build () <;> simp [Step.answerWithout, Step.schema?, hbuild, Except.toOption]
      | schema | plan => simp [Step.answerWithout, Step.schema?]
    | some s' => cases step <;> simp [Step.perform, Session.install]
  rw [firstBuilt, List.findSome?_eq_some_iff]
  constructor
  · rintro ⟨before, step, later, rfl, hanswer⟩
    obtain ⟨hnone, hbuilt⟩ := hbuilds.mp hanswer
    exact ⟨before, step, later, rfl, hbuilt, List.findSome?_eq_none_iff.mp hnone⟩
  · rintro ⟨before, step, later, rfl, hbuilt, hnone⟩
    exact ⟨before, step, later, rfl, hbuilds.mpr ⟨List.findSome?_eq_none_iff.mpr hnone, hbuilt⟩⟩

/-- A session is answered by the schema that it installed first: a step after it builds no other, and a
request gets the plan that compiling it gives, or the same error. Before there is one, each schema is built
that is to be installed, all else fails, and the shared cache stays as it was at the start. -/
theorem perform_after (h : Legible ((requests (before ++ [step])).flatMap Request.leaves)) :
    (∀ s, Installed before s → (step.perform (after before)).1 = step.answerBy s) ∧
      ((¬ ∃ s, Installed before s) → (step.perform (after before)).1 = step.answerWithout ∧
        (after before).cache = .empty ∧ (step.perform (after before)).2.cache = .empty) := by
  have hanswer := answer_after h
  refine ⟨fun s hs => by rw [hanswer, installed_iff.mp hs], fun hnot => ?_⟩
  have hnone : firstBuilt before = none := by
    by_contra hsome
    obtain ⟨s, hs⟩ := Option.ne_none_iff_exists'.mp hsome
    exact hnot ⟨s, installed_iff.mpr hs⟩
  have hidle := (invariant_after before).idle ((invariant_after before).schema.trans hnone)
  refine ⟨by rw [hanswer, hnone], hidle, ?_⟩
  have hschema := (invariant_after before).schema.trans hnone
  generalize after before = session at hidle hschema
  obtain ⟨schema, cache⟩ := session
  obtain rfl : schema = none := hschema
  rw [Step.perform_without]
  exact hidle

/-- A session that is asked for a plan before a schema can be built; when one is installed, for posts of a
day and for the installation of another schema. -/
def forumSteps : List Step :=
  [.plan (.forModel "User"), .install fun _ => .error (.configuration "not declared yet"),
    .install fun _ => .ok forum, .plan (datedPosts ["posts", "role"] 1), .install fun _ => .ok (.ofRelations [] [])]

/-- The posts of another day are then planned on the schema that was installed, and not before. -/
theorem forumSteps_answers :
    let dated := Step.plan (datedPosts ["posts", "role"] 2)
    Installed forumSteps forum ∧
      (dated.perform (after forumSteps)).1 = .plan (forum.compile (datedPosts ["posts", "role"] 2)) ∧
      (dated.perform (after (forumSteps.take 2))).1 = dated.answerWithout ∧
      (dated.perform (after (forumSteps.take 2))).2.cache = .empty := by
  intro dated
  have hlegible : Legible ((requests (forumSteps ++ [dated])).flatMap Request.leaves) := legible_datedPosts
  have hinstalled : Installed forumSteps forum :=
    ⟨forumSteps.take 2, _, forumSteps.drop 3, rfl, rfl⟩
  have hearly : Legible ((requests (forumSteps.take 2 ++ [dated])).flatMap Request.leaves) := by
    have hleaves : (requests (forumSteps.take 2 ++ [dated])).flatMap Request.leaves =
        [.date ⟨2024, 1, 2⟩] := rfl
    rw [hleaves]
    simp [Legible]
  have hnone : ¬ ∃ s, Installed (forumSteps.take 2) s := by
    rintro ⟨s, hs⟩
    cases installed_iff.mp hs
  obtain ⟨hanswer, -, hcache⟩ := (perform_after hearly).2 hnone
  exact ⟨hinstalled, (perform_after hlegible).1 forum hinstalled, hanswer, hcache⟩

end EagerLoad.Session
