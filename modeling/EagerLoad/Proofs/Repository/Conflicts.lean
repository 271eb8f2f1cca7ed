import EagerLoad.Repository.Integrity
import Mathlib.Data.List.Infix

/-!
# Which column is in conflict

A violation is a conflict over the first declared column that occurs in the constraint's name or in the
message. The name that a database gives to the constraint of a unique column holds the name of its table, too,
so the conflict is over that column only if no column declared before it occurs in the name.
-/

namespace EagerLoad

/-- A pattern is found in characters if it is an infix of them. -/
theorem Text.occursIn_iff {pattern cs : List Char} : occursIn pattern cs = true ↔ pattern <:+: cs := by
  induction cs with
  | nil => simp [occursIn]
  | cons c rest ih => simp [occursIn, ih, List.infix_cons_iff]

theorem Text.contains_iff {text pattern : String} :
    contains text pattern = true ↔ pattern.toList <:+: text.toList :=
  occursIn_iff

namespace Uniques

variable {u : Uniques} {constraint : Option String} {message column table : String} {e e' : Error}

/-- A violation names a column if the column occurs in the constraint's name or in the message. -/
def Names (constraint : Option String) (message column : String) : Prop :=
  (∃ name ∈ constraint, column.toList <:+: name.toList) ∨ column.toList <:+: message.toList

theorem mentions_iff : mentions constraint message column = true ↔ Names constraint message column := by
  cases constraint <;> simp [mentions, Names, Text.contains_iff]

/-- What an error becomes where some columns are declared unique. -/
inductive Translation (u : Uniques) : Error → Error → Prop
  /-- The first declared column that a violation names is in conflict. -/
  | conflict {constraint : Option String} {message column : String} {before after : List String}
    (declared : u.columns = before ++ column :: after) (named : Names constraint message column)
    (first : ∀ earlier ∈ before, ¬ Names constraint message earlier) :
    Translation u (.integrity constraint message) (.conflict s!"{column} already in use")
  | unclassified {constraint : Option String} {message : String}
    (unnamed : ∀ column ∈ u.columns, ¬ Names constraint message column) :
    Translation u (.integrity constraint message) (.database "unclassified integrity violation")
  | unchanged {e : Error} (other : e.isIntegrity = false) : Translation u e e

theorem translation_translate (u : Uniques) (e : Error) : u.Translation e (u.translate e) := by
  cases e with
  | integrity constraint message =>
    rw [translate]
    cases hfind : u.columns.find? (mentions constraint message) with
    | some column =>
      obtain ⟨hnamed, before, after, hdeclared, hfirst⟩ := List.find?_eq_some_iff_append.mp hfind
      refine .conflict hdeclared (mentions_iff.mp hnamed) fun earlier hearlier hnames => ?_
      simpa [mentions_iff.mpr hnames] using hfirst earlier hearlier
    | none =>
      refine .unclassified fun column hcolumn hnames => ?_
      exact List.find?_eq_none.mp hfind column hcolumn (mentions_iff.mpr hnames)
  | _ => exact .unchanged rfl

/-- No violation is left. -/
theorem Translation.isIntegrity (h : u.Translation e e') : e'.isIntegrity = false := by
  cases h with
  | conflict | unclassified => rfl
  | unchanged other => exact other

/-- The name that a database gives by default to the constraint of a unique column. -/
def defaultName (table column : String) : String :=
  table ++ "_" ++ column ++ "_key"

theorem infix_defaultName (table column : String) :
    column.toList <:+: (defaultName table column).toList :=
  ⟨(table ++ "_").toList, "_key".toList, by simp [defaultName]⟩

theorem conflict_inj {a b : String} :
    Error.conflict s!"{a} already in use" = .conflict s!"{b} already in use" ↔ a = b := by
  refine ⟨fun h => ?_, fun h => h ▸ rfl⟩
  have htext : a ++ " already in use" = b ++ " already in use" := Error.conflict.inj h
  simpa using htext

/-- An element is the first with a property if none before it has the property. -/
theorem find?_eq_some_self_iff {p : String → Bool} {names : List String} {name : String} (hmem : name ∈ names)
    (hp : p name = true) :
    names.find? p = some name ↔ ∀ earlier ∈ names.takeWhile (· ≠ name), ¬ p earlier = true := by
  induction names with
  | nil => cases hmem
  | cons first rest ih =>
    by_cases hfirst : first = name
    · simp [hfirst, hp]
    · have hrest : name ∈ rest := (List.mem_cons.mp hmem).resolve_left (Ne.symm hfirst)
      cases hpfirst : p first with
      | true => simp [hfirst, hpfirst]
      | false => simpa [hfirst, hpfirst] using ih hrest

/-- Where the message names no other declared column, a violation of the constraint with the default name for a
declared column is a conflict over the first declared column that occurs in this name. So it is over the column
itself where no column declared before it occurs in the name, and only there. -/
theorem translate_defaultName (table : String) (hcolumn : column ∈ u.columns)
    (hmessage : ∀ other ∈ u.columns, other ≠ column → ¬ other.toList <:+: message.toList) :
    (∃ before found after, u.columns = before ++ found :: after ∧
      found.toList <:+: (defaultName table column).toList ∧
      (∀ earlier ∈ before, ¬ earlier.toList <:+: (defaultName table column).toList) ∧
      u.translate (.integrity (some (defaultName table column)) message) =
        .conflict s!"{found} already in use") ∧
    (u.translate (.integrity (some (defaultName table column)) message) =
        .conflict s!"{column} already in use" ↔
      ∀ earlier ∈ u.columns.takeWhile (· ≠ column),
        ¬ earlier.toList <:+: (defaultName table column).toList) := by
  have hmentioned : mentions (some (defaultName table column)) message column = true :=
    mentions_iff.mpr (.inl ⟨_, rfl, infix_defaultName table column⟩)
  -- a declared column that the message names is the column itself
  have hmentions : ∀ c ∈ u.columns, mentions (some (defaultName table column)) message c = true ↔
      c.toList <:+: (defaultName table column).toList := by
    intro c hc
    rw [mentions_iff]
    by_cases heq : c = column
    · subst heq
      exact iff_of_true (mentions_iff.mp hmentioned) (infix_defaultName table c)
    · simp [Names, hmessage c hc heq]
  obtain ⟨found, hfind⟩ := Option.isSome_iff_exists.mp
    (List.find?_isSome.mpr ⟨column, hcolumn, hmentioned⟩)
  have htranslate : u.translate (.integrity (some (defaultName table column)) message) =
      .conflict s!"{found} already in use" := by
    rw [translate, hfind]
  constructor
  · obtain ⟨hfound, before, after, hdeclared, hfirst⟩ := List.find?_eq_some_iff_append.mp hfind
    refine ⟨before, found, after, hdeclared, ?_, fun earlier hearlier hinfix => ?_, htranslate⟩
    · exact (hmentions found (List.mem_of_find?_eq_some hfind)).mp hfound
    · have hmem : earlier ∈ u.columns := hdeclared ▸ List.mem_append_left _ hearlier
      simpa [(hmentions earlier hmem).mpr hinfix] using hfirst earlier hearlier
  · rw [htranslate, conflict_inj, ← Option.some_inj, ← hfind, find?_eq_some_self_iff hcolumn hmentioned]
    refine forall₂_congr fun earlier hearlier => not_congr (hmentions earlier ?_)
    exact (List.takeWhile_sublist _).subset hearlier

/-- The unique columns of users. -/
def userNames : Uniques := ⟨["username", "name"]⟩

theorem userNames_conflict : "name" ∈ userNames.columns ∧
    (∀ other ∈ userNames.columns, other ≠ "name" → ¬ other.toList <:+: "duplicate key value".toList) ∧
    userNames.translate (.integrity (some "user_name_key") "duplicate key value") =
      .conflict "name already in use" := by
  have hmessage : ∀ other ∈ userNames.columns, other ≠ "name" →
      ¬ other.toList <:+: "duplicate key value".toList := by decide
  exact ⟨by decide, hmessage, (translate_defaultName "user" (by decide) hmessage).2.mpr (by decide)⟩

/-- If names are declared first, a user name that is taken is reported as a name. -/
theorem username_reported_as_name : "username" ∈ ["name", "username"] ∧
    (∀ other ∈ ["name", "username"], other ≠ "username" →
      ¬ other.toList <:+: "duplicate key value".toList) ∧
    (Uniques.mk ["name", "username"]).translate
        (.integrity (some (defaultName "user" "username")) "duplicate key value") =
      .conflict "name already in use" ∧
    Error.conflict "name already in use" ≠ .conflict "username already in use" := by
  decide

end Uniques

end EagerLoad
