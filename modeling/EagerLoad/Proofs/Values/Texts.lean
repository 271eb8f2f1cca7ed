import EagerLoad.Json.Reader
import EagerLoad.Value
import EagerLoad.Proofs.Decimal.Floats

/-!
# Values told by their texts

What is written is read back: a string from between its quotes, an identifier from its digits, a list of
numbers from between its commas. So different values of these types have different texts.
-/

namespace EagerLoad

namespace Json

section Strings

variable {c d : Char} {rest : List Char}

/-- What is read when a character stands before the rest of a string. -/
def prepend (c : Char) (read : Option (List Char × List Char)) : Option (List Char × List Char) :=
  read.map fun (cs, rest) => (c :: cs, rest)

theorem readString_letter (hc : unescape? d = some c) (hd : d ≠ 'u') :
    readString ('\\' :: d :: rest) = prepend c (readString rest) := by
  rw [readString, hc]
  · cases readString rest <;> rfl
  · simp [hd]

theorem readString_plain (hquote : c ≠ '"') (hescape : c ≠ '\\') :
    readString (c :: rest) = prepend c (readString rest) := by
  rw [readString]
  · cases readString rest <;> rfl
  · simp [hquote]
  · simp [hescape]
  · simp [hescape]

/-- The code unit of a control character is read back. -/
theorem unitOfHex?_control : ∀ n < 0x20, unitOfHex? ['0', '0', hexDigit (n / 16), hexDigit n] = some n ∧
    isSurrogate true n = false ∧ isSurrogate false n = false := by
  decide

theorem readString_unit (hc : c.toNat < 0x20) :
    readString ('\\' :: 'u' :: '0' :: '0' :: hexDigit (c.toNat / 16) :: hexDigit c.toNat :: rest) =
      prepend c (readString rest) := by
  obtain ⟨hunit, hsecond, hfirst⟩ := unitOfHex?_control c.toNat hc
  rw [readString, hunit, Option.bind_eq_bind, Option.bind_some, hsecond, hfirst, Char.ofNat_toNat]
  cases readString rest <;> rfl

/-- An escaped character is read back. -/
theorem readString_escapeChar (c : Char) (rest : List Char) :
    readString (escapeChar c ++ rest) = prepend c (readString rest) := by
  unfold escapeChar
  split_ifs with hquote hbackslash hline hreturn htab hback hfeed hcontrol
  case pos =>
    subst hquote
    exact readString_letter rfl (by decide)
  case pos =>
    subst hbackslash
    exact readString_letter rfl (by decide)
  case pos =>
    subst hline
    exact readString_letter rfl (by decide)
  case pos =>
    subst hreturn
    exact readString_letter rfl (by decide)
  case pos =>
    subst htab
    exact readString_letter rfl (by decide)
  case pos =>
    subst hback
    exact readString_letter rfl (by decide)
  case pos =>
    subst hfeed
    exact readString_letter rfl (by decide)
  case pos => exact readString_unit hcontrol
  case neg => exact readString_plain hquote hbackslash

/-- A string that is written is read back. -/
theorem readString_escaped (cs rest : List Char) :
    readString (cs.flatMap escapeChar ++ '"' :: rest) = some (cs, rest) := by
  induction cs with
  | nil => rfl
  | cons c cs ih =>
    rw [List.flatMap_cons, List.append_assoc, readString_escapeChar, ih]
    rfl

theorem toList_quote (s : String) : (quote s).toList = '"' :: (s.toList.flatMap escapeChar ++ ['"']) := by
  simp only [quote, String.toList_append, String.toList_ofList]
  rfl

theorem quote_inj {s t : String} (h : quote s = quote t) : s = t := by
  have hlists := congrArg (fun text => readString text.toList.tail) h
  simp only [toList_quote, List.tail_cons, readString_escaped] at hlists
  exact String.toList_inj.mp (Prod.mk.inj (Option.some.inj hlists)).1

end Strings

/-!
## Numbers and lists of numbers
-/

/-- A finite number is written as itself. -/
theorem ofFloat_of_isFinite {x : Float} (hx : x.isFinite = true) : ofFloat x = .num (.real x hx) := by
  simp only [ofFloat, Number.ofFloat?, dif_pos hx]

/-- Whether the text is that of a number, by its first character. -/
def IsNumeric (text : String) : Prop :=
  ∃ c rest, text.toList = c :: rest ∧ (c = '-' ∨ c.isDigit = true)

theorem isNumeric_int (n : Int) : IsNumeric (toString n) := by
  rw [Int.toString_eq_repr, Int.repr_eq_if]
  split
  · obtain ⟨c, rest, hcons⟩ := List.exists_cons_of_ne_nil (Nat.toDigits_ne_nil (b := 10) (n := n.toNat))
    exact ⟨c, rest, Nat.toList_repr.trans hcons, .inr (Decimal.isDigit_toDigits c (hcons ▸ List.mem_cons_self))⟩
  · exact ⟨'-', _, String.toList_append, .inl rfl⟩

theorem isNumeric_finite (style : Decimal.Layout) (format : Decimal.BinaryFormat) (bits : Nat) :
    IsNumeric (style.finite format bits) := by
  obtain ⟨c, rest, hhead, hc⟩ := Decimal.head_magnitude style ((format.magnitude bits).shortest style.tie)
  unfold Decimal.Layout.finite
  cases format.isNegative bits
  · exact ⟨c, rest, String.toList_ofList.trans hhead, .inr hc⟩
  · exact ⟨'-', _, String.toList_ofList, .inl rfl⟩

theorem IsNumeric.ne_null {text : String} (h : IsNumeric text) : text ≠ "null" := by
  rintro rfl
  obtain ⟨c, rest, hcons, hc⟩ := h
  obtain ⟨rfl, -⟩ := List.cons.inj (hcons : 'n' :: _ = _)
  revert hc
  decide

theorem itemTexts_eq_map (items : List Json) : itemTexts items = items.map text := by
  induction items with
  | nil => rfl
  | cons item rest ih => rw [itemTexts, ih, List.map_cons]

/-- Texts that are not empty and have no comma in them are told apart between commas. -/
theorem intercalate_comma_inj {texts texts' : List String} (h : ∀ t ∈ texts, t ≠ "" ∧ ',' ∉ t.toList)
    (h' : ∀ t ∈ texts', t ≠ "" ∧ ',' ∉ t.toList)
    (heq : ",".intercalate texts = ",".intercalate texts') : texts = texts' := by
  have hsplit {texts : List String} (h : ∀ t ∈ texts, t ≠ "" ∧ ',' ∉ t.toList) (hne : texts ≠ []) :
      (",".intercalate texts).toList.splitOn ',' = texts.map String.toList := by
    rw [String.toList_intercalate]
    refine List.splitOn_intercalate ',' ?_ (List.map_eq_nil_iff.not.mpr hne)
    rintro _ hmem
    obtain ⟨t, ht, rfl⟩ := List.mem_map.mp hmem
    exact (h t ht).2
  have hempty {texts : List String} (h : ∀ t ∈ texts, t ≠ "" ∧ ',' ∉ t.toList) (hne : texts ≠ []) :
      ",".intercalate texts ≠ ",".intercalate [] := by
    intro hnil
    have hread := hsplit h hne
    rw [hnil] at hread
    cases texts with
    | nil => exact hne rfl
    | cons t rest =>
      have ht : t.toList = [] := (List.cons.inj hread).1.symm
      exact (h t List.mem_cons_self).1 (String.toList_eq_nil_iff.mp ht)
  by_cases hne : texts = []
  · by_contra hdiff
    subst hne
    exact hempty h' (Ne.symm hdiff) heq.symm
  · by_cases hne' : texts' = []
    · subst hne'
      exact absurd heq (hempty h hne)
    · have hparts := congrArg (fun t => t.toList.splitOn ',') heq
      have hlists := (hsplit h hne).symm.trans (hparts.trans (hsplit h' hne'))
      exact List.map_injective_iff.mpr (fun _ _ => String.toList_inj.mp) hlists

/-- Lists of bytes are told apart. -/
theorem text_bytes_inj {content content' : List UInt8}
    (h : (arr (content.map fun n => .num (.ofByte n))).text =
      (arr (content'.map fun n => .num (.ofByte n))).text) :
    content = content' := by
  have htexts (content : List UInt8) : itemTexts (content.map fun n => .num (.ofByte n)) =
      content.map fun n => (n.toNat : Int).repr := by
    rw [itemTexts_eq_map, List.map_map]
    rfl
  have hclear (content : List UInt8) : ∀ t ∈ content.map fun n => (n.toNat : Int).repr,
      t ≠ "" ∧ ',' ∉ t.toList := by
    intro t ht
    obtain ⟨n, -, rfl⟩ := List.mem_map.mp ht
    rw [show (n.toNat : Int).repr = n.toNat.repr from rfl, ne_eq, ← String.toList_eq_nil_iff, Nat.toList_repr]
    exact ⟨Nat.toDigits_ne_nil, Decimal.not_mem_of_isDigit rfl Decimal.isDigit_toDigits⟩
  rw [text, text, htexts, htexts] at h
  have hinner : ",".intercalate (content.map fun n => (n.toNat : Int).repr) =
      ",".intercalate (content'.map fun n => (n.toNat : Int).repr) := by
    simpa [← String.toList_inj] using h
  have hlists := intercalate_comma_inj (hclear content) (hclear content') hinner
  refine List.map_injective_iff.mpr (fun n n' hn => ?_) hlists
  exact UInt8.toNat_inj.mp (Int.ofNat_inj.mp (Int.repr_injective hn))

end Json

namespace Uuid

/-- The digits of an identifier in base 16. -/
def digits (u : Uuid) : List Char :=
  (List.range 32).map fun i => Nat.digitChar ((u.bits.toNat >>> (4 * (31 - i))) % 16)

theorem exists_of_mem_digits {u : Uuid} {c : Char} (hc : c ∈ u.digits) : ∃ d < 16, c = Nat.digitChar d := by
  obtain ⟨i, -, rfl⟩ := List.mem_map.mp hc
  exact ⟨_, Nat.mod_lt _ (by decide), rfl⟩

/-- The first digits write the bits that stand first. -/
theorem natOfDigits_take (n : Nat) {k : Nat} (hk : k ≤ 32) :
    Text.natOfDigits 16 ((List.range k).map fun i => Nat.digitChar ((n >>> (4 * (31 - i))) % 16)) =
      n >>> (4 * (32 - k)) % 16 ^ k := by
  induction k with
  | zero => simp [Text.natOfDigits, Nat.mod_one]
  | succ k ih =>
    have hdigit : ∀ d < 16, Text.digitValue? (Nat.digitChar d) = some d := by decide
    have hbefore : n >>> (4 * (32 - k)) = n >>> (4 * (31 - k)) / 16 := by
      rw [show 4 * (32 - k) = 4 * (31 - k) + 4 by omega, Nat.shiftRight_add, Nat.shiftRight_eq_div_pow _ 4]
    have ih := ih (by omega)
    unfold Text.natOfDigits at ih ⊢
    rw [List.range_succ, List.map_append, List.foldl_append, ih, List.map_singleton, List.foldl_cons,
      List.foldl_nil, hdigit _ (Nat.mod_lt _ (by decide)), Option.getD_some, hbefore,
      show 32 - (k + 1) = 31 - k by omega, Nat.pow_succ, Nat.mul_comm (16 ^ k), Nat.mod_mul, Nat.add_comm]

theorem natOfDigits_digits (u : Uuid) : Text.natOfDigits 16 u.digits = u.bits.toNat := by
  refine (natOfDigits_take u.bits.toNat le_rfl).trans ?_
  exact Nat.mod_eq_of_lt u.bits.isLt

/-- Without its hyphens a text is the digits. -/
theorem filter_text (u : Uuid) : u.text.toList.filter (· ≠ '-') = u.digits := by
  have hnone : ∀ d < 16, Nat.digitChar d ≠ '-' := by decide
  have hkept {part : List Char} (hpart : part ⊆ u.digits) : part.filter (· ≠ '-') = part := by
    refine List.filter_eq_self.mpr fun c hc => decide_eq_true ?_
    obtain ⟨d, hd, rfl⟩ := exists_of_mem_digits (hpart hc)
    exact hnone d hd
  have hgroup (k n : Nat) : ((u.digits.drop k).take n).filter (· ≠ '-') = (u.digits.drop k).take n :=
    hkept fun c hc => List.mem_of_mem_drop (List.mem_of_mem_take hc)
  have hhyphen (part : List Char) : ('-' :: part).filter (· ≠ '-') = part.filter (· ≠ '-') := rfl
  have hjoin (k n : Nat) : (u.digits.drop k).take n ++ u.digits.drop (k + n) = u.digits.drop k := by
    rw [← List.drop_drop, List.take_append_drop]
  change (String.ofList (u.digits.take 8 ++ '-' :: (u.digits.drop 8).take 4 ++ '-' :: (u.digits.drop 12).take 4
    ++ '-' :: (u.digits.drop 16).take 4 ++ '-' :: u.digits.drop 20)).toList.filter (· ≠ '-') = u.digits
  simp only [String.toList_ofList, List.filter_append, hhyphen, hgroup, List.append_assoc]
  rw [hkept fun c hc => List.mem_of_mem_drop hc, hkept fun c hc => List.mem_of_mem_take hc, hjoin 16 4,
    hjoin 12 4, hjoin 8 4, List.take_append_drop]

/-- An identifier is read back from its text. -/
theorem ofText?_text (u : Uuid) : ofText? u.text = some u := by
  have hlength : u.digits.length = 32 := by rw [digits, List.length_map, List.length_range]
  have hhex : u.digits.all Text.isHexDigit = true := by
    have hall : ∀ d < 16, Text.isHexDigit (Nat.digitChar d) = true := by decide
    refine List.all_eq_true.mpr fun c hc => ?_
    obtain ⟨d, hd, rfl⟩ := exists_of_mem_digits hc
    exact hall d hd
  unfold ofText?
  rw [filter_text]
  simp [hlength, hhex, natOfDigits_digits, guard]

theorem text_inj {u u' : Uuid} (h : u.text = u'.text) : u = u' := by
  have hread := ofText?_text u
  rw [h, ofText?_text] at hread
  exact (Option.some.inj hread).symm

end Uuid
end EagerLoad
