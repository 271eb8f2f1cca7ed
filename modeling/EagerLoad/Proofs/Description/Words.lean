import EagerLoad.Proofs.Description.Clear

/-!
# Leaves as words

Numbers, identifiers, dates and times are written without blanks, quotes, commas, parentheses, brackets
and braces, so they are words of the texts in which they stand.
-/

namespace EagerLoad.Description

/-- Characters that all belong to words. -/
def Plain (cs : List Char) : Prop :=
  ∀ c ∈ cs, isPlain c = true

namespace Plain

variable {cs ds : List Char}

theorem append (hcs : Plain cs) (hds : Plain ds) : Plain (cs ++ ds) :=
  List.forall_mem_append.mpr ⟨hcs, hds⟩

theorem cons {c : Char} (hc : isPlain c = true) (hcs : Plain cs) : Plain (c :: cs) :=
  List.forall_mem_cons.mpr ⟨hc, hcs⟩

theorem nil : Plain [] := by simp [Plain]

theorem replicate (n : Nat) {c : Char} (hc : isPlain c = true) : Plain (List.replicate n c) := by
  intro d hd
  rwa [(List.mem_replicate.mp hd).2]

theorem sublist (hcs : Plain cs) (h : ds.Sublist cs) : Plain ds :=
  fun c hc => hcs c (h.subset hc)

end Plain

theorem isPlain_of_isDigit {c : Char} (h : c.isDigit = true) : isPlain c = true := by
  rw [isPlain, decide_eq_true_iff]
  intro hmem
  have hnone : ['"', '(', ')', '[', ']', '\x7b', '\x7d', ',', ' '].all (!·.isDigit) = true := by decide
  have hnot := List.all_eq_true.mp hnone c hmem
  rw [h] at hnot
  cases hnot

theorem plain_toDigits (n : Nat) : Plain (Nat.toDigits 10 n) := fun _ hc =>
  isPlain_of_isDigit (Nat.isDigit_of_mem_toDigits (by decide) (by decide) hc)

/-- A text is a word if it is not empty and its characters belong to words. -/
theorem isWord_of_plain {s : String} (hne : s.toList ≠ []) (h : Plain s.toList) : isWord s = true := by
  simp only [isWord, Bool.and_eq_true, decide_eq_true_eq, List.all_eq_true]
  exact ⟨hne, h⟩

theorem isWord_toString (n : Nat) : isWord (toString n) = true := by
  have hdigits : (toString n).toList = Nat.toDigits 10 n := Nat.toList_repr
  exact isWord_of_plain (hdigits ▸ Nat.toDigits_ne_nil) (hdigits ▸ plain_toDigits n)

theorem isWord_append {s t : String} (hs : isWord s = true) (ht : Plain t.toList) :
    isWord (s ++ t) = true := by
  simp only [isWord, Bool.and_eq_true, decide_eq_true_eq, List.all_eq_true] at hs
  refine isWord_of_plain ?_ ?_ <;> rw [String.toList_append]
  · exact fun h => hs.1 (List.append_eq_nil_iff.mp h).1
  · exact Plain.append hs.2 ht

theorem isWord_intToString (n : Int) : isWord (toString n) = true := by
  cases n with
  | ofNat n => exact isWord_toString n
  | negSucc n => exact isWord_append rfl (plain_of_isWord (isWord_toString (n + 1)))

section Numbers

theorem plain_positional {digits : List Char} (h : Plain digits) (whole : Int) :
    Plain (Decimal.positional digits whole) := by
  unfold Decimal.positional
  split
  · exact ((Plain.replicate _ rfl).cons rfl).cons rfl |>.append h
  split
  · exact (h.append (.replicate _ rfl)).append ((Plain.nil.cons rfl).cons rfl)
  · exact (h.sublist (List.take_sublist _ _)).append ((h.sublist (List.drop_sublist _ _)).cons rfl)

theorem plain_scientific {digits : List Char} (h : Plain digits) (plusSign : Bool) (exponent : Int) :
    Plain (Decimal.scientific plusSign digits exponent) := by
  have hsign : Plain (if exponent < 0 then ['-'] else if plusSign then ['+'] else []) := by
    split
    · exact Plain.nil.cons rfl
    split
    · exact Plain.nil.cons rfl
    · exact .nil
  have hdigits := plain_toDigits exponent.natAbs
  unfold Decimal.scientific
  split
  · rename_i first second rest
    obtain ⟨hfirst, hlater⟩ := List.forall_mem_cons.mp h
    have hpoint : Plain ('.' :: second :: rest) := Plain.cons rfl hlater
    exact ((Plain.cons hfirst hpoint).append (hsign.cons rfl)).append hdigits
  · exact (h.append (hsign.cons rfl)).append hdigits

theorem plain_magnitude (style : Decimal.Layout) (d : Decimal.Digits) : Plain (style.magnitude d) := by
  unfold Decimal.Layout.magnitude
  split
  · exact ((Plain.nil.cons rfl).cons rfl).cons rfl
  · simp only
    split
    · exact plain_positional (plain_toDigits _) _
    · exact plain_scientific (plain_toDigits _) _ _

theorem magnitude_ne_nil (style : Decimal.Layout) (d : Decimal.Digits) : style.magnitude d ≠ [] := by
  unfold Decimal.Layout.magnitude
  split
  · simp
  · simp only
    split
    · unfold Decimal.positional
      split
      · simp
      split
      · simp
      · simp
    · unfold Decimal.scientific
      simp

/-- A finite number is a word. -/
theorem isWord_finite (style : Decimal.Layout) (format : Decimal.BinaryFormat) (bits : Nat) :
    isWord (style.finite format bits) = true := by
  have hplain := plain_magnitude style ((format.magnitude bits).shortest style.tie)
  have hne := magnitude_ne_nil style ((format.magnitude bits).shortest style.tie)
  refine isWord_of_plain ?_ ?_ <;> rw [Decimal.Layout.finite, String.toList_ofList] <;> split
  · simp
  · exact hne
  · exact hplain.cons rfl
  · exact hplain

theorem isWord_numberText (format : Decimal.BinaryFormat) (bits : Nat) :
    isWord (numberText format bits) = true := by
  unfold numberText
  split
  · split
    · rfl
    split
    · rfl
    · rfl
  · exact isWord_finite _ _ _

theorem isWord_number (n : Number) : isWord n.text = true := by
  cases n with
  | int n _ _ => exact isWord_intToString n
  | real x _ => exact isWord_finite _ _ _

end Numbers

section Calendar

theorem isWord_uuid (u : Uuid) : isWord u.text = true := by
  have hdigit : ∀ n < 16, isPlain (Nat.digitChar n) = true := by decide
  have hdigits : Plain ((List.range 32).map fun i =>
      Nat.digitChar ((u.bits.toNat >>> (4 * (31 - i))) % 16)) := by
    intro c hc
    obtain ⟨i, -, rfl⟩ := List.mem_map.mp hc
    exact hdigit _ (Nat.mod_lt _ (by decide))
  have hpart (m n : Nat) := hdigits.sublist (((List.take_sublist m _).trans (List.drop_sublist n _)))
  refine isWord_of_plain ?_ ?_ <;> simp only [Uuid.text, String.toList_ofList]
  · simp
  · exact ((((hdigits.sublist (List.take_sublist _ _)).append (.cons rfl (hpart _ _))).append
      (.cons rfl (hpart _ _))).append (.cons rfl (hpart _ _))).append
        (.cons rfl (hdigits.sublist (List.drop_sublist _ _)))

theorem plain_padded (width n : Nat) : Plain (Calendar.padded width n).toList := by
  rw [Calendar.padded, String.toList_ofList]
  exact (Plain.replicate _ rfl).append (plain_toDigits n)

theorem isWord_padded (width n : Nat) : isWord (Calendar.padded width n) = true := by
  refine isWord_of_plain ?_ (plain_padded width n)
  rw [Calendar.padded, String.toList_ofList]
  exact fun h => Nat.toDigits_ne_nil (List.append_eq_nil_iff.mp h).2

theorem isWord_date (d : Date) : isWord d.text = true := by
  have hyear : isWord (Calendar.yearText d.year) = true := by
    unfold Calendar.yearText
    split
    · exact isWord_padded _ _
    split
    · exact isWord_append rfl (plain_padded _ _)
    · exact isWord_append rfl (plain_padded _ _)
  have hyphen : Plain "-".toList := Plain.nil.cons rfl
  exact isWord_append (isWord_append (isWord_append (isWord_append hyear hyphen) (plain_padded _ _))
    hyphen) (plain_padded _ _)

theorem isWord_time (t : TimeOfDay) : isWord t.text = true := by
  have hcolon : Plain ":".toList := Plain.nil.cons rfl
  have hpoint (width n : Nat) : Plain ("." ++ Calendar.padded width n).toList := by
    rw [String.toList_append]
    exact (plain_padded width n).cons rfl
  have hfraction (n : Nat) : Plain (Calendar.fractionText n).toList := by
    unfold Calendar.fractionText
    split
    · exact .nil
    split
    · exact hpoint _ _
    split
    · exact hpoint _ _
    · exact hpoint _ _
  exact isWord_append (isWord_append (isWord_append (isWord_append (isWord_append (isWord_padded _ _)
    hcolon) (plain_padded _ _)) hcolon) (plain_padded _ _)) (hfraction _)

theorem isWord_instant (i : Instant) : isWord (i.text ++ "Z") = true :=
  isWord_append (isWord_append (isWord_append (isWord_date _) (Plain.nil.cons rfl))
    (plain_of_isWord (isWord_time _))) (Plain.nil.cons rfl)

end Calendar

end EagerLoad.Description
