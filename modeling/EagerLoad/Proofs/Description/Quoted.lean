import EagerLoad.Description
import Mathlib.Data.List.TakeDrop

/-!
# Quoted texts

A text between quotes can be read back: every character is escaped in a way of its own, and none of them
looks like the quote at the end.
-/

namespace EagerLoad.Description

/-- Where a list starts with elements of a kind, these are told from what follows them. -/
theorem span_front {α : Type} {p : α → Bool} {front rest : List α} (hfront : ∀ a ∈ front, p a = true)
    (hrest : ∀ a ∈ rest.head?, p a = false) :
    (front ++ rest).takeWhile p = front ∧ (front ++ rest).dropWhile p = rest := by
  rw [List.takeWhile_append_of_pos hfront, List.dropWhile_append_of_pos hfront]
  cases rest with
  | nil => simp
  | cons a rest =>
    have ha : ¬ p a = true := by simp [hrest a rfl]
    rw [List.takeWhile_cons_of_neg ha, List.dropWhile_cons_of_neg ha, List.append_nil]
    exact ⟨rfl, rfl⟩

/-- What stands before the first occurrence of an element is told from it and what follows. -/
theorem span_until {α : Type} [DecidableEq α] {a : α} {front : List α} (h : a ∉ front)
    (later : List α) : (front ++ a :: later).takeWhile (· ≠ a) = front ∧
      (front ++ a :: later).dropWhile (· ≠ a) = a :: later :=
  span_front (fun b hb => decide_eq_true fun heq => h (heq ▸ hb)) (by simp)

/-- Digits in base 16 are digits, and write the number that they are digits of. -/
theorem hexDigits_spec (n : Nat) :
    (∀ c ∈ hexDigits n, (Text.digitValue? c).isSome = true) ∧ Text.natOfDigits 16 (hexDigits n) = n := by
  have hdigit : ∀ d < 16, Text.digitValue? (Nat.digitChar d) = some d := by decide
  induction n using Nat.strongRecOn with
  | _ n ih =>
    unfold hexDigits
    by_cases hn : n < 16
    · rw [Nat.toDigits_of_lt_base hn]
      simp [Text.natOfDigits, hdigit n hn]
    · obtain ⟨hdigits, hvalue⟩ := ih (n / 16) (by omega)
      have hlast := hdigit _ (Nat.mod_lt n (by decide))
      rw [Nat.toDigits_of_base_le (by decide) (by omega)]
      constructor
      · intro c hc
        rcases List.mem_append.mp hc with hc | hc
        · exact hdigits c hc
        · rw [List.mem_singleton.mp hc, hlast]
          rfl
      · unfold Text.natOfDigits hexDigits at *
        rw [List.foldl_append, hvalue, List.foldl_cons, List.foldl_nil, hlast, Option.getD_some,
          Nat.div_add_mod]

/-- The character at the front of an escaped text, with what follows it. -/
def unescape : List Char → Option (Char × List Char)
  | '\\' :: 'u' :: '\x7b' :: rest =>
    some (.ofNat (Text.natOfDigits 16 (rest.takeWhile (· ≠ '\x7d'))), (rest.dropWhile (· ≠ '\x7d')).tail)
  | '\\' :: 'n' :: rest => some ('\n', rest)
  | '\\' :: 'r' :: rest => some ('\r', rest)
  | '\\' :: 't' :: rest => some ('\t', rest)
  | '\\' :: '0' :: rest => some ('\x00', rest)
  | '\\' :: c :: rest => some (c, rest)
  | c :: rest => some (c, rest)
  | [] => none

/-- An escaped character is read back. -/
theorem unescape_escapeChar (c : Char) (rest : List Char) :
    unescape (escapeChar c ++ rest) = some (c, rest) := by
  unfold escapeChar
  split
  · rename_i h
    rw [h]
    rfl
  split
  · rename_i h
    rw [h]
    rfl
  split
  · rename_i h
    rw [h]
    rfl
  split
  · rename_i h
    rw [h]
    rfl
  split
  · rename_i h
    rw [h]
    rfl
  split
  · rename_i h
    have hc : c = '\x00' := Char.ext (UInt32.toNat_inj.mp h)
    rw [hc]
    rfl
  split
  · rename_i hquote hbackslash _ _ _ _ _
    simp only [List.cons_append, List.nil_append]
    rw [unescape]
    all_goals simp [hbackslash]
  · have hdigit : '\x7d' ∉ hexDigits c.toNat := by
      intro hclose
      have hsome := (hexDigits_spec c.toNat).1 _ hclose
      cases hsome
    obtain ⟨htake, hdrop⟩ := span_until hdigit rest
    have hchar : Char.ofNat c.toNat = c := Char.ofNat_toNat c
    simp only [List.append_assoc, List.cons_append, List.nil_append]
    rw [unescape, htake, hdrop, (hexDigits_spec c.toNat).2, hchar]
    rfl

/-- An escaped character starts with no quote. -/
theorem head_escapeChar (c : Char) : ∃ d rest, escapeChar c = d :: rest ∧ d ≠ '"' := by
  unfold escapeChar
  repeat' split
  all_goals first | exact ⟨_, _, rfl, by decide⟩ | exact ⟨_, _, rfl, ‹_›⟩

/-- Escaped characters up to the quote at the end are told apart, whatever follows it. -/
theorem escaped_unique {cs ds rest rest' : List Char}
    (h : cs.flatMap escapeChar ++ '"' :: rest = ds.flatMap escapeChar ++ '"' :: rest') :
    cs = ds ∧ rest = rest' := by
  have hquote {c : Char} {cs rest rest' : List Char} :
      '"' :: rest ≠ (c :: cs).flatMap escapeChar ++ rest' := by
    obtain ⟨d, later, hescape, hd⟩ := head_escapeChar c
    rw [List.flatMap_cons, hescape]
    intro h
    exact hd (List.cons.inj h).1.symm
  induction cs generalizing ds with
  | nil =>
    cases ds with
    | nil => exact ⟨rfl, (List.cons.inj h).2⟩
    | cons d ds => exact absurd h hquote
  | cons c cs ih =>
    cases ds with
    | nil => exact absurd h.symm hquote
    | cons d ds =>
      rw [List.flatMap_cons, List.flatMap_cons, List.append_assoc, List.append_assoc] at h
      have hread := congrArg unescape h
      rw [unescape_escapeChar, unescape_escapeChar] at hread
      obtain ⟨hchar, hlater⟩ := Prod.mk.inj (Option.some.inj hread)
      obtain ⟨hall, hrest⟩ := ih hlater
      exact ⟨by rw [hchar, hall], hrest⟩

/-- A quoted text as characters. -/
theorem toList_quote (s : String) : (quote s).toList = '"' :: (s.toList.flatMap escapeChar ++ ['"']) := by
  simp only [quote, String.toList_append, String.toList_ofList]
  rfl

/-- Quoted texts are told apart, whatever follows them. -/
theorem quote_unique {s s' : String} {rest rest' : List Char}
    (h : (quote s).toList ++ rest = (quote s').toList ++ rest') : s = s' ∧ rest = rest' := by
  rw [toList_quote, toList_quote, List.cons_append, List.cons_append, List.append_assoc,
    List.append_assoc] at h
  obtain ⟨hchars, hrest⟩ := escaped_unique (List.cons.inj h).2
  exact ⟨String.toList_inj.mp hchars, hrest⟩

end EagerLoad.Description
