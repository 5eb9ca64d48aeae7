import Reckoner.Proofs.Value.Pairs
import Reckoner.Value.Writer

/-!
# Written texts

Every point is written in one of four forms: itself, a short escape, the escape of a unit, or two such escapes
for a code that does not fit into one. Each of them reads back, but for the escapes of two halves in a row that
make up a pair; they are read as its character.

Main result: `readText_written`.
-/

namespace Reckoner

/-! ### Hexadecimal digits -/

namespace Text

theorem hexDigits_one {n : Nat} (small : n < 16) : hexDigits 1 n = [n.digitChar] := by
  simp [hexDigits, Nat.toDigits_of_lt_base small]

theorem hexDigits_succ {width : Nat} (positive : 0 < width) (n : Nat) :
    hexDigits (width + 1) n = hexDigits width (n / 16) ++ [(n % 16).digitChar] := by
  unfold hexDigits
  by_cases small : n < 16
  · -- The zero of the higher digits is one of those that fill up the width.
    have zeros : List.replicate width '0' = List.replicate (width - 1) '0' ++ ['0'] := by
      rw [← List.replicate_succ', Nat.sub_add_cancel positive]
    rw [Nat.toDigits_of_lt_base small, Nat.div_eq_of_lt small, Nat.mod_eq_of_lt small]
    simp only [List.length_cons, List.length_nil, Nat.zero_add, Nat.add_sub_cancel, zeros]
    rfl
  · rw [Nat.toDigits_of_base_le (by decide) (by omega)]
    simp only [List.length_append, List.length_cons, List.length_nil, Nat.zero_add, Nat.add_sub_add_right,
      List.append_assoc]

theorem hexDigits_four {n : Nat} (small : n < 0x10000) :
    hexDigits 4 n =
      [(n / 16 / 16 / 16).digitChar, (n / 16 / 16 % 16).digitChar, (n / 16 % 16).digitChar,
        (n % 16).digitChar] := by
  rw [hexDigits_succ (by decide), hexDigits_succ (by decide), hexDigits_succ (by decide),
    hexDigits_one (by omega)]
  rfl

end Text

namespace Value

theorem hexDigit?_digitChar : ∀ n < 16, hexDigit? n.digitChar = some n := by decide

/-- Four digits hold a unit. -/
theorem escapeUnit_read (unit : Nat) (fits : unit < 0x10000) :
    ∃ a b c d, escapeUnit unit = ['\\', 'u', a, b, c, d] ∧ unit? a b c d = some unit := by
  refine ⟨_, _, _, _, by rw [escapeUnit, Text.hexDigits_four fits], ?_⟩
  have low : ∀ n, n % 16 < 16 := fun n => Nat.mod_lt n (by decide)
  simp only [unit?, hexDigit?_digitChar _ (low _), hexDigit?_digitChar (unit / 16 / 16 / 16) (by omega),
    Option.bind_eq_bind, Option.bind_some]
  congr 1
  omega

/-! ### Points -/

/-- The forms in which a point is written. -/
inductive WrittenPoint : CodePoint → List Char → Prop
  | plain {c : Char} (visible : 0x20 ≤ c.toNat) (noQuote : c ≠ '"') (noEscape : c ≠ '\\') :
    WrittenPoint (.char c) [c]
  | short {c letter : Char} (known : shortEscape? letter = some c) : WrittenPoint (.char c) ['\\', letter]
  | unit {a b c d : Char} {unit : Nat} (code : unit? a b c d = some unit) :
    WrittenPoint (.ofUnit unit) ['\\', 'u', a, b, c, d]
  | pair {a b c d e f g h : Char} {high low : Nat} (first : unit? a b c d = some high)
    (second : unit? e f g h = some low) (leads : isHighSurrogate high = true)
    (follows : isLowSurrogate low = true) :
    WrittenPoint (.char (charOfPair high low)) ['\\', 'u', a, b, c, d, '\\', 'u', e, f, g, h]

theorem toNat_valid (c : Char) : c.toNat < 0xd800 ∨ 0xdfff < c.toNat ∧ c.toNat < 0x110000 := c.valid

theorem ofUnit_toNat (c : Char) : CodePoint.ofUnit c.toNat = .char c := by
  have valid := toNat_valid c
  rw [CodePoint.ofUnit, dif_neg (by omega), Char.ofNat_toNat]

theorem ofUnit_unit (half : Surrogate) : CodePoint.ofUnit half.unit = .surrogate half := dif_pos half.inRange

theorem writeChar_form (c : Char) : WrittenPoint (.char c) (writeChar c) := by
  have valid := toNat_valid c
  unfold writeChar
  repeat' split
  -- The short escapes come first.
  iterate 7
    · next same =>
      subst same
      exact .short rfl
  · next noQuote noEscape _ _ _ _ _ visible => exact .plain visible.1 noQuote noEscape
  · next small =>
    obtain ⟨a, b, x, d, written, code⟩ := escapeUnit_read c.toNat small
    rw [written, ← ofUnit_toNat]
    exact .unit code
  · next large =>
    -- Twenty bits are left above the first plane, ten of them for each half.
    let offset := c.toNat - 0x10000
    obtain ⟨a, b, x, d, first, high⟩ := escapeUnit_read (0xd800 + offset / 0x400) (by omega)
    obtain ⟨e, f, g, h, second, low⟩ := escapeUnit_read (0xdc00 + offset % 0x400) (by omega)
    have leads : isHighSurrogate (0xd800 + offset / 0x400) = true := by
      simp only [isHighSurrogate, Bool.and_eq_true, decide_eq_true_eq]
      omega
    have follows : isLowSurrogate (0xdc00 + offset % 0x400) = true := by
      simp only [isLowSurrogate, Bool.and_eq_true, decide_eq_true_eq]
      omega
    have code : charOfPair (0xd800 + offset / 0x400) (0xdc00 + offset % 0x400) = c := by
      have whole : 0x10000 + (0xd800 + offset / 0x400 - 0xd800) * 0x400 + (0xdc00 + offset % 0x400 - 0xdc00) =
          c.toNat := by omega
      rw [charOfPair, whole, Char.ofNat_toNat]
    rw [escapePair, first, second]
    exact code ▸ .pair high low leads follows

theorem writePoint_form (point : CodePoint) : WrittenPoint point (writePoint point) := by
  cases point with
  | char c => exact writeChar_form c
  | surrogate half =>
    have range := half.inRange
    obtain ⟨a, b, c, d, written, code⟩ := escapeUnit_read half.unit (by omega)
    rw [writePoint, written, ← ofUnit_unit]
    exact .unit code

/-! ### What follows a point -/

/-- What follows an escape does not start with a spoilt one. -/
def EscapesWell (text : List Char) : Prop :=
  ∀ a b c d rest, text = '\\' :: 'u' :: a :: b :: c :: d :: rest → (unit? a b c d).isSome

/-- What follows a half does not start with the escape of its partner. -/
def NoPartner (half : Surrogate) (text : List Char) : Prop :=
  ∀ a b c d rest unit, text = '\\' :: 'u' :: a :: b :: c :: d :: rest → unit? a b c d = some unit →
    (half.leads && isLowSurrogate unit) = false

/-- An escape at the start of a written point is that of a unit: of the point itself, or of the half that leads the
pair for it. -/
theorem WrittenPoint.first_escape {point : CodePoint} {text rest others : List Char} {a b c d : Char}
    (written : WrittenPoint point text) (same : text ++ rest = '\\' :: 'u' :: a :: b :: c :: d :: others) :
    ∃ unit, unit? a b c d = some unit ∧ (point = .ofUnit unit ∨ isLowSurrogate unit = false) := by
  cases written with
  | plain visible noQuote noEscape =>
    injection same with same
    exact absurd same noEscape
  | short known =>
    injection same with _ same
    injection same with same
    rw [same] at known
    cases known
  | unit code =>
    cases same
    exact ⟨_, code, .inl rfl⟩
  | pair first second leads follows =>
    -- A half that leads is never the second one of a pair.
    cases same
    refine ⟨_, first, .inr ?_⟩
    simp only [isHighSurrogate, isLowSurrogate, Bool.and_eq_true, decide_eq_true_eq, Bool.and_eq_false_iff,
      decide_eq_false_iff_not] at leads ⊢
    omega

theorem WrittenPoint.escapesWell {point : CodePoint} {text : List Char} (written : WrittenPoint point text)
    (rest : List Char) : EscapesWell (text ++ rest) := by
  intro a b c d others same
  obtain ⟨unit, code, -⟩ := written.first_escape same
  rw [code]
  rfl

theorem isHighSurrogate_unit (half : Surrogate) : isHighSurrogate half.unit = half.leads := by
  have range := half.inRange
  simp [isHighSurrogate, Surrogate.leads, range.1]

theorem isLowSurrogate_unit (half : Surrogate) : isLowSurrogate half.unit = !half.leads := by
  have range := half.inRange
  simp only [isLowSurrogate, Surrogate.leads, range.2, decide_true, Bool.and_true, ← decide_not, Nat.not_lt]

/-- A unit that is no half of a pair is a character. -/
theorem ofUnit_cases (unit : Nat) :
    (∃ half : Surrogate, half.unit = unit ∧ CodePoint.ofUnit unit = .surrogate half) ∨
      isHighSurrogate unit = false ∧ isLowSurrogate unit = false := by
  by_cases range : 0xd800 ≤ unit ∧ unit < 0xe000
  · exact .inl ⟨⟨unit, range⟩, rfl, dif_pos range⟩
  · right
    simp only [isHighSurrogate, isLowSurrogate, Bool.and_eq_false_iff, decide_eq_false_iff_not]
    omega

/-- Only the half that makes up a pair with another one is written like its partner. -/
theorem WrittenPoint.noPartner {half : Surrogate} {next : CodePoint} {text : List Char}
    (written : WrittenPoint next text) (apart : (CodePoint.surrogate half).pairs next = false) (rest : List Char) :
    NoPartner half (text ++ rest) := by
  intro a b c d others unit same code
  obtain ⟨_, known, itself | notLow⟩ := written.first_escape same
  · -- It is the escape of the point itself, which is no partner.
    cases known.symm.trans code
    rcases ofUnit_cases unit with ⟨other, rfl, point⟩ | ⟨-, notLow⟩
    · rw [itself, point] at apart
      rwa [isLowSurrogate_unit]
    · rw [notLow, Bool.and_false]
  · cases known.symm.trans code
    rw [notLow, Bool.and_false]

/-- A written point is read as itself, unless it is a half whose partner follows. -/
theorem WrittenPoint.read {point : CodePoint} {text rest : List Char} (written : WrittenPoint point text)
    (well : EscapesWell rest) (alone : ∀ half, point = .surrogate half → NoPartner half rest) :
    readText (text ++ rest) = consPoint point (readText rest) := by
  cases written with
  | plain visible noQuote noEscape => simp [readText, noEscape, Nat.not_lt.mpr visible]
  | @short c letter known =>
    -- No short escape has the letter of the long ones.
    have noUnit : letter ≠ 'u' := by
      rintro rfl
      cases known
    simp [readText, noUnit, known]
  | @unit a b c d unit code =>
    by_cases another : ∃ e f g h others, rest = '\\' :: 'u' :: e :: f :: g :: h :: others
    · -- The next escape is looked at, but it is no partner.
      obtain ⟨e, f, g, h, others, rfl⟩ := another
      obtain ⟨next, second⟩ := Option.isSome_iff_exists.mp (well e f g h others rfl)
      have apart : (isHighSurrogate unit && isLowSurrogate next) = false := by
        rcases ofUnit_cases unit with ⟨half, rfl, point⟩ | ⟨notHigh, -⟩
        · rw [isHighSurrogate_unit]
          exact alone half point e f g h others next rfl second
        · rw [notHigh, Bool.false_and]
      simp [readText, code, second, apart]
    · have none : ∀ e f g h others, rest = '\\' :: 'u' :: e :: f :: g :: h :: others → False :=
        fun e f g h others found => another ⟨e, f, g, h, others, found⟩
      simp [readText, code]
  | pair first second leads follows => simp [readText, first, second, leads, follows]

/-! ### Texts -/

/-- The closing quote is no escape. -/
theorem escapesWell_writeText (points : List CodePoint) (rest : List Char) :
    EscapesWell (points.flatMap writePoint ++ '"' :: rest) := by
  cases points with
  | nil =>
    intro a b c d others same
    cases same
  | cons point points =>
    rw [List.flatMap_cons, List.append_assoc]
    exact (writePoint_form point).escapesWell _

/-- A point that makes up no pair with the next one is read as it is. -/
theorem readText_cons {point : CodePoint} {points : List CodePoint} (rest : List Char)
    (apart : ∀ next ∈ points.head?, point.pairs next = false) :
    readText ((point :: points).flatMap writePoint ++ '"' :: rest) =
      consPoint point (readText (points.flatMap writePoint ++ '"' :: rest)) := by
  rw [List.flatMap_cons, List.append_assoc]
  refine (writePoint_form point).read (escapesWell_writeText points rest) ?_
  rintro half rfl
  cases points with
  | nil =>
    intro a b c d others unit same
    cases same
  | cons next points =>
    rw [List.flatMap_cons, List.append_assoc]
    exact (writePoint_form next).noPartner (apart next rfl) _

/-- The escapes of the two halves of a pair are read as its character. -/
theorem readText_pair {first second : Surrogate} (pair : (first.leads && !second.leads) = true)
    (points : List CodePoint) (rest : List Char) :
    readText ((.surrogate first :: .surrogate second :: points).flatMap writePoint ++ '"' :: rest) =
      consPoint (.char (charOfPair first.unit second.unit))
        (readText (points.flatMap writePoint ++ '"' :: rest)) := by
  have inRange := first.inRange
  have inRange' := second.inRange
  obtain ⟨a, b, c, d, high, highCode⟩ := escapeUnit_read first.unit (by omega)
  obtain ⟨e, f, g, h, low, lowCode⟩ := escapeUnit_read second.unit (by omega)
  obtain ⟨leads, follows⟩ := Bool.and_eq_true_iff.mp pair
  have written := WrittenPoint.pair highCode lowCode ((isHighSurrogate_unit first).trans leads)
    ((isLowSurrogate_unit second).trans follows)
  -- Written one behind the other, the halves look like the character that they make up.
  have both : (CodePoint.surrogate first :: .surrogate second :: points).flatMap writePoint =
      ['\\', 'u', a, b, c, d, '\\', 'u', e, f, g, h] ++ points.flatMap writePoint := by
    simp only [List.flatMap_cons, writePoint, high, low]
    rfl
  rw [both, List.append_assoc]
  refine written.read (escapesWell_writeText points rest) ?_
  rintro half ⟨⟩

/-- A written text is read up to its closing quote. -/
theorem readText_written (points : List CodePoint) (rest : List Char) :
    readText (points.flatMap writePoint ++ '"' :: rest) = .ok (joinPairs points, rest) := by
  induction points using joinPairs.induct with
  | case1 => rfl
  | case2 first second others pair ih =>
    rw [readText_pair pair, ih, joinPairs, if_pos pair]
    rfl
  | case3 first second others apart ih =>
    -- Two halves, but not in the order of a pair.
    have alone : ∀ next ∈ (CodePoint.surrogate second :: others).head?,
        (CodePoint.surrogate first).pairs next = false := by
      rintro next ⟨⟩
      exact Bool.not_eq_true _ ▸ apart
    rw [readText_cons rest alone, ih, joinPairs, if_neg apart]
    rfl
  | case4 point others other ih =>
    rw [readText_cons rest (pairs_of_other other), ih, joinPairs.eq_3 point others other]
    rfl

/-- A half is kept where it stands alone, and two that make up a pair are read as their character. -/
example : readText "\\ud83d\\ud83d\\ude00\"".toList = .ok ([.surrogate ⟨0xd83d, by decide⟩, .char '😀'], []) := by
  decide +kernel

end Value

end Reckoner
