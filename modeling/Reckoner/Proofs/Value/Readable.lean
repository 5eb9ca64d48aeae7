import Reckoner.Proofs.Outcome
import Reckoner.Proofs.Value.Storable
import Reckoner.Proofs.Value.Text

/-!
# What is read

Reading a text gives a storable value and leaves an end of the text. If an integer is too long, then all of
its digits stand in the text. Each part of the reader keeps this, so that its steps may be chained. The depth
that a text is read with is enough for all of it.

Main results: `ofText_eq_ok`, `ofText_eq_tooLong`, `ofText_of_le`.
-/

namespace Reckoner

namespace Value

/-- So many digits in a row, and more than an integer may have. -/
def LongRun (digits : Nat) (text : List Char) : Prop :=
  Text.digitLimit < digits ∧ ∃ run, IsDigits run ∧ run.length = digits ∧ run <:+: text

/-- What reading at the start of a text may come to: something good and an end of the text, or a fault. -/
def Yields {α : Type} (good : α → Prop) (text : List Char) : Except ReadFault (α × List Char) → Prop
  | .ok (found, rest) => good found ∧ rest <:+ text
  | .error .malformed => True
  | .error (.tooLong digits) => LongRun digits text

section

variable {α β : Type} {good : α → Prop} {better : β → Prop} {text rest : List Char}
  {outcome : Except ReadFault (α × List Char)}

/-- What holds behind a part of the text holds of the text. -/
theorem Yields.behind (yields : Yields good rest outcome) (suffix : rest <:+ text) : Yields good text outcome := by
  match outcome with
  | .ok (found, more) => exact ⟨yields.1, yields.2.trans suffix⟩
  | .error .malformed => exact trivial
  | .error (.tooLong digits) =>
    obtain ⟨long, run, all, length, inside⟩ := yields
    exact ⟨long, run, all, length, inside.trans suffix.isInfix⟩

theorem Yields.bind {next : α × List Char → Except ReadFault (β × List Char)} (first : Yields good text outcome)
    (others : ∀ found rest, good found → Yields better rest (next (found, rest))) :
    Yields better text (outcome >>= next) := by
  match outcome with
  | .ok (found, more) => exact (others found more first.1).behind first.2
  | .error .malformed => exact trivial
  | .error (.tooLong digits) => exact first

theorem Yields.map {change : α × List Char → β × List Char} (first : Yields good text outcome)
    (keeps : ∀ found rest, good found → better (change (found, rest)).1)
    (ends : ∀ found rest, (change (found, rest)).2 = rest) : Yields better text (outcome.map change) := by
  match outcome with
  | .ok (found, more) => exact ⟨keeps found more first.1, (ends found more).symm ▸ first.2⟩
  | .error .malformed => exact trivial
  | .error (.tooLong digits) => exact first

end

theorem skipSpace_suffix (text : List Char) : skipSpace text <:+ text := List.dropWhile_suffix _

/-- What stands behind a mark is an end of the text. -/
theorem suffix_of_mark {text rest : List Char} {mark : Char} (found : skipSpace text = mark :: rest) :
    rest <:+ text :=
  (List.suffix_cons mark rest).trans (found ▸ skipSpace_suffix text)

/-! ### The parts of a text -/

theorem unit_of_ofUnit {unit : Nat} {half : Surrogate} (same : CodePoint.ofUnit unit = .surrogate half) :
    half.unit = unit := by
  unfold CodePoint.ofUnit at same
  split at same
  · cases same
    rfl
  · cases same

theorem consPoint_eq_ok {point : CodePoint} {outcome : Except ReadFault (List CodePoint × List Char)}
    {points : List CodePoint} {rest : List Char} (read : consPoint point outcome = .ok (points, rest)) :
    points.head? = some point := by
  cases outcome with
  | ok found =>
    cases read
    rfl
  | error fault => cases read

/-- Only its own escape is read as a half. -/
theorem readText_half {text rest : List Char} {half : Surrogate} {points : List CodePoint}
    (read : readText text = .ok (points, rest)) (first : points.head? = some (.surrogate half)) :
    ∃ a b c d others, text = '\\' :: 'u' :: a :: b :: c :: d :: others ∧ unit? a b c d = some half.unit := by
  have head : ∀ {point : CodePoint} {outcome}, consPoint point outcome = .ok (points, rest) →
      point = .surrogate half :=
    fun read => Option.some_inj.mp ((consPoint_eq_ok read).symm.trans first)
  revert read
  fun_cases readText text with
  | case4 a b c d e f g h others high low _ known _ =>
    intro read
    exact ⟨a, b, c, d, _, rfl, unit_of_ofUnit (head read) ▸ known⟩
  | case6 a b c d others _ unit known =>
    intro read
    exact ⟨a, b, c, d, _, rfl, unit_of_ofUnit (head read) ▸ known⟩
  | case2 =>
    rintro ⟨⟩
    cases first
  | case3 | case8 | case11 =>
    intro read
    cases head read
  | case1 | case5 | case7 | case9 | case10 => rintro ⟨⟩

/-- A half whose partner's escape does not follow makes up no pair with what is read next. -/
theorem NoPartner.apart {half : Surrogate} {text rest : List Char} {points : List CodePoint}
    (alone : NoPartner half text) (read : readText text = .ok (points, rest)) :
    ∀ next ∈ points.head?, (CodePoint.surrogate half).pairs next = false := by
  intro next first
  cases next with
  | char c => rfl
  | surrogate other =>
    obtain ⟨a, b, c, d, others, rfl, code⟩ := readText_half read first
    have noPair := alone a b c d others _ rfl code
    rwa [isLowSurrogate_unit] at noPair

theorem consPoint_yields {text rest : List Char} {point : CodePoint}
    (others : Yields NoPair rest (readText rest)) (alone : ∀ half, point = .surrogate half → NoPartner half rest)
    (suffix : rest <:+ text) : Yields NoPair text (consPoint point (readText rest)) := by
  cases read : readText rest with
  | error fault =>
    rw [read] at others
    exact others.behind suffix
  | ok found =>
    rw [read] at others
    have apart : ∀ next ∈ found.1.head?, point.pairs next = false := by
      cases point with
      | char c => exact fun _ _ => rfl
      | surrogate half => exact (alone half rfl).apart read
    exact ⟨List.isChain_cons.mpr ⟨apart, others.1⟩, others.2.trans suffix⟩

/-- No text that is read has the halves of a pair in a row. -/
theorem readText_yields (text : List Char) : Yields NoPair text (readText text) := by
  fun_induction readText text with
  | case1 => exact trivial
  | case2 rest => exact ⟨.nil, List.suffix_cons _ _⟩
  | case3 a b c d e f g h rest high low _ _ _ ih =>
    -- Two escapes are one character.
    exact consPoint_yields ih (by rintro half ⟨⟩) ⟨[_, _, _, _, _, _, _, _, _, _, _, _], rfl⟩
  | case4 a b c d e f g h rest high low second _ apart ih =>
    -- The two escapes were looked at together, and they are no pair.
    refine consPoint_yields ih ?_ ⟨[_, _, _, _, _, _], rfl⟩
    rintro half point _ _ _ _ _ unit ⟨⟩ code
    cases second.symm.trans code
    rwa [← isHighSurrogate_unit, unit_of_ofUnit point, ← Bool.not_eq_true]
  | case5 => exact trivial
  | case6 a b c d rest single unit _ ih =>
    -- No escape follows, so no partner does.
    refine consPoint_yields ih ?_ ⟨[_, _, _, _, _, _], rfl⟩
    rintro half point _ _ _ _ _ other rfl code
    exact (single _ _ _ _ _ rfl).elim
  | case7 => exact trivial
  | case8 letter rest _ _ c _ ih => exact consPoint_yields ih (by rintro half ⟨⟩) ⟨[_, _], rfl⟩
  | case9 => exact trivial
  | case10 => exact trivial
  | case11 c rest _ _ _ _ _ ih => exact consPoint_yields ih (by rintro half ⟨⟩) ⟨[_], rfl⟩

theorem readNumber_yields (negative : Bool) (text : List Char) : Yields Storable text (readNumber negative text) := by
  unfold readNumber
  split
  · exact trivial
  next numeral rest scanned =>
    obtain ⟨whole, nonempty, all, suffix⟩ := Numeral.scan?_split scanned
    split
    · exact ⟨.double _, suffix⟩
    · split
      next long => exact ⟨long, _, all, rfl, whole.isInfix⟩
      next short =>
        have digits := digitCount_digitsValue_le all nonempty
        refine ⟨.integer ?_, suffix⟩
        rw [natAbs_signed]
        omega

theorem readAtom_yields (text : List Char) : Yields Storable text (readAtom text) := by
  unfold readAtom
  split
  · exact ⟨.null, ⟨[_, _, _, _], rfl⟩⟩
  · exact ⟨.bool true, ⟨[_, _, _, _], rfl⟩⟩
  · exact ⟨.bool false, ⟨[_, _, _, _, _], rfl⟩⟩
  · exact ⟨.double _, ⟨[_, _, _], rfl⟩⟩
  · exact ⟨.double _, ⟨[_, _, _, _, _, _, _, _], rfl⟩⟩
  · exact ⟨.double _, ⟨[_, _, _, _, _, _, _, _, _], rfl⟩⟩
  · exact (readNumber_yields true _).behind ⟨[_], rfl⟩
  · exact readNumber_yields false _

theorem readKey_yields (text : List Char) : Yields CodeText.Unpaired text (readKey text) := by
  unfold readKey
  split
  · next rest =>
    refine ((readText_yields rest).bind fun key behind single => ?_).behind (List.suffix_cons _ _)
    simp only
    split
    · next more colon => exact ⟨single, (skipSpace_suffix more).trans (suffix_of_mark colon)⟩
    · exact trivial
  · exact trivial

/-! ### Values -/

section

variable {depth : Nat} (values : ∀ text, Yields Storable text (readValue depth text))
  (items : ∀ text, Yields (fun items => ∀ item ∈ items, Storable item) text (readItems depth text))
  (entries : ∀ text,
    Yields (fun entries => ∀ entry ∈ entries, entry.1.Unpaired ∧ Storable entry.2) text (readEntries depth text))

include items entries in
theorem readValue_step (text : List Char) : Yields Storable text (readValue (depth + 1) text) := by
  rw [readValue.eq_def]
  simp only
  split
  · exact ((readText_yields _).map (fun _ _ single => .text single) fun _ _ => rfl).behind (List.suffix_cons _ _)
  · next rest =>
    split
    · next more bracket =>
      have none : Storable (list []) := .list fun _ member => nomatch member
      exact ⟨none, (suffix_of_mark bracket).trans (List.suffix_cons _ _)⟩
    · exact ((items _).map (fun _ _ all => .list all) fun _ _ => rfl).behind
        ((skipSpace_suffix rest).trans (List.suffix_cons _ _))
  · next rest =>
    split
    · next more brace =>
      have none : Storable (object []) :=
        .object List.nodup_nil (fun _ member => nomatch member) fun _ member => nomatch member
      exact ⟨none, (suffix_of_mark brace).trans (List.suffix_cons _ _)⟩
    · refine ((entries _).map (fun found _ all => ?_) fun _ _ => rfl).behind
        ((skipSpace_suffix rest).trans (List.suffix_cons _ _))
      -- Of entries with the same key the last one is kept, in the place of the first.
      have empty : Entries.Distinct ([] : Entries CodeText Value) := List.nodup_nil
      have each : ∀ entry ∈ Entries.update [] found, entry.1.Unpaired ∧ Storable entry.2 :=
        fun entry member => all entry ((Entries.mem_update member).resolve_left List.not_mem_nil)
      exact .object (empty.update found) (fun entry member => (each entry member).1)
        fun entry member => (each entry member).2
  · exact readAtom_yields _

include values items in
theorem readItems_step (text : List Char) :
    Yields (fun items => ∀ item ∈ items, Storable item) text (readItems (depth + 1) text) := by
  rw [readItems.eq_def]
  refine (values text).bind fun item rest storable => ?_
  simp only
  split
  · next more comma =>
    refine ((items _).bind fun others behind all => ?_).behind
      ((skipSpace_suffix more).trans (suffix_of_mark comma))
    exact ⟨List.forall_mem_cons.mpr ⟨storable, all⟩, List.suffix_refl _⟩
  · next more bracket => exact ⟨by simpa using storable, suffix_of_mark bracket⟩
  · exact trivial

include values entries in
theorem readEntries_step (text : List Char) :
    Yields (fun entries => ∀ entry ∈ entries, entry.1.Unpaired ∧ Storable entry.2) text
      (readEntries (depth + 1) text) := by
  rw [readEntries.eq_def]
  refine (readKey_yields text).bind fun key behind unpaired => ?_
  refine (values behind).bind fun value rest storable => ?_
  simp only
  split
  · next more comma =>
    refine ((entries _).bind fun others behind all => ?_).behind
      ((skipSpace_suffix more).trans (suffix_of_mark comma))
    exact ⟨List.forall_mem_cons.mpr ⟨⟨unpaired, storable⟩, all⟩, List.suffix_refl _⟩
  · next more brace => exact ⟨by simpa using ⟨unpaired, storable⟩, suffix_of_mark brace⟩
  · exact trivial

end

/-- The three readers rest on each other, each with less depth. -/
theorem readValue_yields (depth : Nat) (text : List Char) : Yields Storable text (readValue depth text) := by
  have all : (∀ text, Yields Storable text (readValue depth text)) ∧
      (∀ text, Yields (fun items => ∀ item ∈ items, Storable item) text (readItems depth text)) ∧
      (∀ text, Yields (fun entries => ∀ entry ∈ entries, entry.1.Unpaired ∧ Storable entry.2) text
        (readEntries depth text)) := by
    induction depth with
    | zero => exact ⟨fun _ => trivial, fun _ => trivial, fun _ => trivial⟩
    | succ depth ih =>
      obtain ⟨values, items, entries⟩ := ih
      exact ⟨readValue_step items entries, readItems_step values items, readEntries_step values entries⟩
  exact all.1 text

theorem ofText_eq_ok {text : List Char} {value : Value} (read : ofText text = .ok value) :
    Storable value := by
  obtain ⟨⟨found, rest⟩, first, finished⟩ := bind_eq_ok.mp read
  have yields := readValue_yields (2 * text.length + 1) (skipSpace text)
  rw [first] at yields
  simp only at finished
  split at finished
  · cases finished
    exact yields.1
  · cases finished

/-- An integer that is too long to be read stands in the text with all of its digits. -/
theorem ofText_eq_tooLong {text : List Char} {digits : Nat} (read : ofText text = .error (.tooLong digits)) :
    LongRun digits text := by
  have yields := (readValue_yields (2 * text.length + 1) (skipSpace text)).behind (skipSpace_suffix text)
  rcases bind_eq_error.mp read with first | ⟨⟨found, rest⟩, first, finished⟩
  · rw [first] at yields
    exact yields
  · simp only at finished
    split at finished <;> cases finished

/-! ### Depth -/

section

variable {α β : Type} {good : α → Prop} {text : List Char} {outcome : Except ReadFault (α × List Char)}

/-- How reading goes on matters only for the ends of the text. -/
theorem Yields.bind_congr {next other : α × List Char → Except ReadFault β} (yields : Yields good text outcome)
    (same : ∀ found rest, rest <:+ text → next (found, rest) = other (found, rest)) :
    outcome >>= next = outcome >>= other := by
  match outcome with
  | .ok (found, rest) => exact same found rest yields.2
  | .error fault => rfl

end

theorem length_skipSpace_le (text : List Char) : (skipSpace text).length ≤ text.length :=
  (skipSpace_suffix text).length_le

theorem length_behind_mark {text rest : List Char} {mark : Char} (found : skipSpace text = mark :: rest) :
    (skipSpace rest).length < text.length := by
  have whole := length_skipSpace_le text
  rw [found, List.length_cons] at whole
  exact Nat.lt_of_le_of_lt (length_skipSpace_le rest) whole

/-- One unit of depth more changes no reading of the texts that are short enough for the depth. -/
structure Settled (depth : Nat) : Prop where
  values : ∀ text : List Char, 2 * text.length < depth → readValue (depth + 1) text = readValue depth text
  items : ∀ text : List Char, 2 * text.length + 1 < depth → readItems (depth + 1) text = readItems depth text
  entries : ∀ text : List Char,
    2 * text.length + 1 < depth → readEntries (depth + 1) text = readEntries depth text

section

variable {depth : Nat} (settled : Settled depth) (text : List Char)

include settled

theorem readValue_deeper (enough : 2 * text.length < depth + 1) :
    readValue (depth + 2) text = readValue (depth + 1) text := by
  rw [readValue.eq_def (depth + 2), readValue.eq_def (depth + 1)]
  simp only
  split
  · rfl
  · next rest =>
    have shorter := length_skipSpace_le rest
    rw [List.length_cons] at enough
    generalize skipSpace rest = inside at shorter ⊢
    split
    · rfl
    · rw [settled.items _ (by omega)]
  · next rest =>
    have shorter := length_skipSpace_le rest
    rw [List.length_cons] at enough
    generalize skipSpace rest = inside at shorter ⊢
    split
    · rfl
    · rw [settled.entries _ (by omega)]
  · rfl

theorem readItems_deeper (enough : 2 * text.length + 1 < depth + 1) :
    readItems (depth + 2) text = readItems (depth + 1) text := by
  rw [readItems.eq_def (depth + 2), readItems.eq_def (depth + 1)]
  simp only
  rw [settled.values text (by omega)]
  refine (readValue_yields depth text).bind_congr fun item rest suffix => ?_
  simp only
  split
  · next more comma =>
    -- The comma makes up for the unit of depth.
    have shorter := Nat.lt_of_lt_of_le (length_behind_mark comma) suffix.length_le
    rw [settled.items _ (by omega)]
  · rfl
  · rfl

theorem readEntries_deeper (enough : 2 * text.length + 1 < depth + 1) :
    readEntries (depth + 2) text = readEntries (depth + 1) text := by
  rw [readEntries.eq_def (depth + 2), readEntries.eq_def (depth + 1)]
  simp only
  refine (readKey_yields text).bind_congr fun key behind suffix => ?_
  have shorter := suffix.length_le
  simp only
  rw [settled.values behind (by omega)]
  refine (readValue_yields depth behind).bind_congr fun value rest suffix => ?_
  simp only
  split
  · next more comma =>
    have shorter := Nat.lt_of_lt_of_le (length_behind_mark comma) suffix.length_le
    rw [settled.entries _ (by omega)]
  · rfl
  · rfl

end

theorem settled (depth : Nat) : Settled depth := by
  induction depth with
  | zero => constructor <;> exact fun _ enough => absurd enough (Nat.not_lt_zero _)
  | succ depth ih => exact ⟨readValue_deeper ih, readItems_deeper ih, readEntries_deeper ih⟩

/-- More depth than the text can take changes nothing. -/
theorem readValue_of_le {depth more : Nat} {text : List Char} (enough : 2 * text.length < depth)
    (le : depth ≤ more) : readValue more text = readValue depth text := by
  induction le with
  | refl => rfl
  | @step more le ih => rw [(settled more).values text (Nat.lt_of_lt_of_le enough le), ih]

/-- A text is read with any depth from the usual one on, so running out of depth is never what makes it
malformed. -/
theorem ofText_of_le {text : List Char} {depth : Nat} (enough : 2 * text.length < depth) :
    ofText text = (do
      let (value, rest) ← readValue depth (skipSpace text)
      match skipSpace rest with
      | [] => return value
      | _ => throw .malformed) := by
  have shorter := length_skipSpace_le text
  have same : readValue depth (skipSpace text) = readValue (2 * text.length + 1) (skipSpace text) :=
    readValue_of_le (by omega) enough
  rw [same]
  rfl

end Value

end Reckoner
