import StackEditor.Json.Printer
import StackEditor.Proofs.Json.Spelling

/-!
# Strings and numbers that were written

A string is written character by character, and the reader takes it back in the same steps: each
character is one that stands for itself or an escape that stands for it (`escape_cases`), so both
judgements on a string, its content and its width, go through by induction on the characters
(`Quoted.ofText_flatMap_escape`).

A natural number is written by its decimal digits. The reader takes digits as long as they come, so
what stands behind a number must not go on with it (`EndsNumber`); and it refuses a zero in front
of other digits, which is never written (`length_decimalDigits`).
-/

namespace StackEditor.Json

/-! ## Strings -/

/-- Four digits that were written are read back. -/
theorem hexUnit_hexDigits (n : Nat) (rest : List Char) :
    hexUnit (Text.hexDigits 4 n ++ rest) = .ok (n % Nat.pow 16 4) := by
  have hlength := Text.length_hexDigits 4 n
  have htake : (Text.hexDigits 4 n ++ rest).take 4 = Text.hexDigits 4 n := by
    rw [← hlength]
    exact List.take_left
  have hchar : ∀ {d}, d < 16 → (Text.hexChar d).utf8Size = 1 := by decide
  have hsize : byteCount (Text.hexDigits 4 n) = 4 := by
    simp only [Text.hexDigits, List.nil_append, List.cons_append, byteCount, List.foldl_cons,
      List.foldl_nil, hchar (Nat.mod_lt _ (by decide))]
  have hlong : ¬ (Text.hexDigits 4 n ++ rest).length < 4 := by
    rw [List.length_append]
    omega
  rw [hexUnit, htake, hsize, if_neg (by decide), if_neg hlong, Text.hexNumber?_hexDigits]

/-- The characters that have an escape of one letter, each with its letter. -/
def shortEscapes : List (Char × Char) :=
  [('"', '"'), ('\\', '\\'), ('\x08', 'b'), ('\x0c', 'f'), ('\n', 'n'), ('\r', 'r'), ('\t', 't')]

/-- A character with an escape of one letter is written as that escape, and the letter stands for
the character. -/
theorem escape_of_mem_shortEscapes : ∀ x ∈ shortEscapes,
    escape x.1 = ['\\', x.2] ∧ shortEscape? x.2 = some x.1 ∧ x.2 ≠ 'u' := by
  simp [shortEscapes, escape, shortEscape?]

/-- An escape of one letter is read, and passed over, as one character. -/
theorem readEscape_short {d c : Char} (hd : d ≠ 'u') (h : shortEscape? d = some c)
    (rest : List Char) :
    readEscape (d :: rest) = .ok (c, 1) ∧ skipEscape (d :: rest) = .ok 1 := by
  constructor
  · rw [readEscape, h]
    exact hd
  · rw [skipEscape, h]
    · rfl
    · exact hd

/-- A control character is written by its number. -/
theorem readEscape_hexDigits {c : Char} (h : c.toNat < 0x20) (rest : List Char) :
    readEscape ('u' :: (Text.hexDigits 4 c.toNat ++ rest)) = .ok (c, 5) ∧
      skipEscape ('u' :: (Text.hexDigits 4 c.toNat ++ rest)) = .ok 5 := by
  have hunit : hexUnit (Text.hexDigits 4 c.toNat ++ rest) = .ok c.toNat := by
    rw [hexUnit_hexDigits, Nat.mod_eq_of_lt (Nat.lt_trans h (by decide))]
  have htrail : isTrail c.toNat = false := by
    simp only [isTrail, Bool.and_eq_false_imp, decide_eq_true_eq]
    omega
  have hlead : isLead c.toNat = false := by
    simp only [isLead, Bool.and_eq_false_imp, decide_eq_true_eq]
    omega
  constructor
  · simp [readEscape, hunit, htrail, hlead, bind, Except.bind]
  · simp [skipEscape, hunit, bind, Except.bind]

/-- A character is written as it is, or as an escape that is read back as the character. -/
theorem escape_cases (c : Char) :
    (escape c = [c] ∧ c ≠ '"' ∧ c ≠ '\\' ∧ ¬ c.toNat < 0x20) ∨
      ∃ tail, escape c = '\\' :: tail ∧ ∀ rest, readEscape (tail ++ rest) = .ok (c, tail.length) ∧
        skipEscape (tail ++ rest) = .ok tail.length := by
  by_cases hshort : c ∈ shortEscapes.map (·.1)
  · obtain ⟨x, hx, rfl⟩ := List.mem_map.mp hshort
    obtain ⟨hescape, hread, hne⟩ := escape_of_mem_shortEscapes x hx
    exact .inr ⟨[x.2], hescape, readEscape_short hne hread⟩
  · simp only [shortEscapes, List.map_cons, List.map_nil, List.mem_cons, List.not_mem_nil, or_false,
      not_or] at hshort
    have hescape : escape c =
        if c.toNat < 0x20 then '\\' :: 'u' :: Text.hexDigits 4 c.toNat else [c] := by
      simp [escape, hshort]
    rw [hescape]
    split
    · next hcontrol =>
      refine .inr ⟨'u' :: Text.hexDigits 4 c.toNat, rfl, fun rest => ?_⟩
      rw [List.length_cons, Text.length_hexDigits]
      exact readEscape_hexDigits hcontrol rest
    · next hcontrol => exact .inl ⟨rfl, hshort.1, hshort.2.1, hcontrol⟩

/-- An escape that is read back is the first character of what is read. -/
theorem readQuoted_escape (c : Char) (cs : List Char) :
    readQuoted (escape c ++ cs) = (readQuoted cs).map (c :: ·) := by
  rcases escape_cases c with ⟨hplain, hquote, hslash, hcontrol⟩ | ⟨tail, hescape, hread⟩
  · rw [hplain, List.singleton_append, readQuoted, if_neg hquote, if_neg hslash, if_neg hcontrol]
    rfl
  · rw [hescape, List.cons_append, readQuoted, if_neg (by decide), if_pos rfl, (hread cs).1]
    simp only [bind, Except.bind, List.drop_left]
    rfl

/-- A character is passed over in the width that it is written in. -/
theorem quotedWidth_escape_append (c : Char) (cs : List Char) :
    quotedWidth (escape c ++ cs) = (quotedWidth cs).map ((escape c).length + ·) := by
  rcases escape_cases c with ⟨hplain, hquote, hslash, hcontrol⟩ | ⟨tail, hescape, hread⟩
  · rw [hplain, List.singleton_append, quotedWidth, if_neg hquote, if_neg hslash, if_neg hcontrol]
    rfl
  · rw [hescape, List.cons_append, quotedWidth, if_neg (by decide), if_pos rfl, (hread cs).2]
    simp only [bind, Except.bind, List.drop_left]
    rfl

/-- A string as a draft has it. -/
def Quoted.of (s : String) : Quoted := ⟨.ok s, .ok ((s.toList.flatMap escape).length + 1)⟩

/-- The characters of a string are read back, up to the quote behind them. -/
theorem readQuoted_flatMap_escape (cs rest : List Char) :
    readQuoted (cs.flatMap escape ++ '"' :: rest) = .ok cs := by
  induction cs with
  | nil => simp [readQuoted]
  | cons c cs ih =>
    rw [List.flatMap_cons, List.append_assoc, readQuoted_escape, ih]
    rfl

/-- A string is passed over up to the quote behind it. -/
theorem quotedWidth_flatMap_escape (cs rest : List Char) :
    quotedWidth (cs.flatMap escape ++ '"' :: rest) = .ok ((cs.flatMap escape).length + 1) := by
  induction cs with
  | nil => simp [quotedWidth]
  | cons c cs ih =>
    rw [List.flatMap_cons, List.append_assoc, quotedWidth_escape_append, ih, List.length_append,
      Nat.add_assoc]
    rfl

/-- The string behind its opening quote, whatever follows it. -/
theorem Quoted.ofText_flatMap_escape (s : String) (rest : List Char) :
    Quoted.ofText (s.toList.flatMap escape ++ '"' :: rest) = Quoted.of s := by
  rw [Quoted.ofText, Quoted.of, readQuoted_flatMap_escape, quotedWidth_flatMap_escape, Except.map,
    String.ofList_toList]

/-! ## Numbers -/

/-- Every number has a digit. -/
theorem decimalDigits_ne_nil (n : Nat) : Text.decimalDigits n ≠ [] := by
  unfold Text.decimalDigits
  split <;> simp

/-- A number that starts with a zero is zero, and its text has no other digit. -/
theorem length_decimalDigits {n : Nat} (h : (Text.decimalDigits n).head? = some '0') :
    (Text.decimalDigits n).length = 1 := by
  fun_induction Text.decimalDigits n with
  | case1 => rfl
  | case2 n hn ih =>
    -- The digits before the last one start with a zero too, so they are none but that.
    obtain ⟨c, ds, hds⟩ := List.exists_cons_of_ne_nil (decimalDigits_ne_nil (n / 10))
    have hvalue := Text.numberOfDigits_decimalDigits (n / 10)
    rw [hds] at h ih hvalue
    obtain rfl := List.eq_nil_of_length_eq_zero (Nat.succ.inj (ih h))
    obtain rfl : c = '0' := Option.some.inj h
    have hzero : n / 10 = 0 := hvalue.symm
    omega

/-- What follows does not go on with a number. -/
def EndsNumber (rest : List Char) : Prop :=
  ∀ c, rest.head? = some c → c.isDigit = false ∧ c ≠ '.' ∧ c ≠ 'e' ∧ c ≠ 'E'

/-- The digits of a number end where the number does. -/
theorem takeWhile_decimalDigits (n : Nat) {rest : List Char} (h : EndsNumber rest) :
    (Text.decimalDigits n ++ rest).takeWhile Char.isDigit = Text.decimalDigits n := by
  rw [List.takeWhile_append_of_pos fun c hc => Text.isDigit_of_mem_decimalDigits hc]
  cases rest with
  | nil => simp
  | cons c rest => simp [(h c rfl).1]

/-- Where a number ends, no fraction and no exponent follow. -/
theorem spellFraction_of_endsNumber {rest : List Char} (h : EndsNumber rest) :
    spellFraction rest = .ok ([], none) := by
  cases rest with
  | nil => rfl
  | cons c rest =>
    obtain ⟨-, hdot, he, hE⟩ := h c rfl
    rw [spellFraction, spellExponent, if_neg (by simp [he, hE])]
    · rfl
    · exact fun _ heq => hdot (List.cons.inj heq).1

/-- The digits of a number are read as a number without sign, fraction and exponent. -/
theorem spell_decimalDigits (n : Nat) {rest : List Char} (h : EndsNumber rest) :
    spell (Text.decimalDigits n ++ rest) = .ok ⟨false, Text.decimalDigits n, [], none⟩ := by
  have hne := decimalDigits_ne_nil n
  have hunsigned : spell (Text.decimalDigits n ++ rest) =
      spellUnsigned false (Text.decimalDigits n ++ rest) := by
    rw [spell]
    rintro tail heq
    obtain ⟨c, ds, hds⟩ := List.exists_cons_of_ne_nil hne
    have hdigit := Text.isDigit_of_mem_decimalDigits (n := n) (c := c) (hds ▸ .head ds)
    rw [hds] at heq
    obtain rfl := (List.cons.inj heq).1
    cases hdigit
  have hdigits : spellDigits (Text.decimalDigits n ++ rest) = .ok (Text.decimalDigits n) := by
    unfold spellDigits
    rw [takeWhile_decimalDigits n h]
    split
    · next hnil => exact absurd hnil hne
    · rfl
  have hzero : ¬ ((Text.decimalDigits n).head? = some '0' ∧ 1 < (Text.decimalDigits n).length) :=
    fun ⟨hhead, hlong⟩ => by rw [length_decimalDigits hhead] at hlong; omega
  rw [hunsigned, spellUnsigned, hdigits]
  simp only [bind, Except.bind, hzero, if_false, List.drop_left, spellFraction_of_endsNumber h]
  rfl

/-- A number as a draft has it. -/
def Numeral.of (n : Nat) : Numeral := ⟨.ok (.natural n), .ok (Text.decimalDigits n).length⟩

/-- The digits of a number of 64 bits are read as the number. -/
theorem Numeral.ofText_decimalDigits {n : Nat} (hn : n ≤ maxWord64) {rest : List Char}
    (h : EndsNumber rest) :
    Numeral.ofText (Text.decimalDigits n ++ rest) = Numeral.of n := by
  rw [Numeral.ofText, spell_decimalDigits n h]
  simp [Numeral.of, Spelled.number, Spelled.isPlain, Spelled.width,
    Text.numberOfDigits_decimalDigits, hn]

end StackEditor.Json
