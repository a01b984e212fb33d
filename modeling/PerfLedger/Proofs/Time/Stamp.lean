import Mathlib.Data.List.TakeWhile
import PerfLedger.Time.Stamp
import PerfLedger.Proofs.Time.Moment

/-!
# Stamps, read back and sorted

A stamp is the reading of a UTC clock with all parts but the year in a fixed width. So two things
that hold of stamps from year 1000 on fail before it.

* **Reading back** (`parseStamp_stampChars`, `parseStamp_early`). The reader asks for a year of four
  digits. A stamp of a later year denotes the reading it was made from; an earlier one is refused.
* **Order** (`compare_stampChars`). Two stamps are compared by their year numerals first, as texts,
  and by the rest after that. This is the order of the instants if and only if the year numerals
  are in the order of the years.

Each part of a stamp is read in front of whatever follows it, so each reader has a lemma of its own
that is quantified over the rest of the text.
-/

namespace PerfLedger.Time

open PerfLedger.Text

/-! ## The parts of a stamp -/

/-- What follows the year and its hyphen. -/
def stampTail (t : WallTime) : List Char :=
  padded 2 t.month ++ '-' :: (padded 2 t.day ++ ' ' :: (padded 2 t.hour ++ ':' ::
    (padded 2 t.minute ++ ':' :: (padded 2 t.second ++ '.' :: padded 6 t.microsecond))))

theorem stampChars_eq (t : WallTime) :
    stampChars t = digits t.year ++ '-' :: stampTail t := by
  simp [stampChars, stampTail]

/-- The stamp of a moment shows the reading of its UTC form. -/
theorem stamp_of_toUtc? {m u : Moment} (h : m.toUtc? = some u) :
    stamp m = .ok (String.ofList (stampChars u.wall)) := by
  obtain ⟨w, z⟩ := m
  cases z with
  | unknown =>
    rw [← Option.some.inj h]
    rfl
  | silent =>
    rw [← Option.some.inj h]
    rfl
  | offset s =>
    obtain ⟨t, ht, rfl⟩ := Option.map_eq_some_iff.mp h
    simp only [stamp, ht]

theorem ensureUtc_eq_ok {m u : Moment} : ensureUtc m = .ok u ↔ m.toUtc? = some u := by
  unfold ensureUtc
  cases m.toUtc? <;> simp

/-! ## Reading the parts -/

/-- A number whose two digits are read as that number. -/
def readsAs (rules : PairRule) (n : Nat) : Bool :=
  match padded 2 n with
  | [a, b] => readPair? rules a b == some n
  | _ => false

theorem readPart?_padded {rules : PairRule} {n : Nat} (h : readsAs rules n = true)
    (single : Char → Option Nat) {next : Char → Bool} {c : Char} (hc : next c = true)
    (cs : List Char) :
    readPart? rules single next (padded 2 n ++ c :: cs) = some (n, c :: cs) := by
  unfold readsAs at h
  split at h
  · next a b hab =>
    have hp : readPair? rules a b = some n := by simpa using h
    rw [hab, List.cons_append, List.cons_append, List.nil_append, readPart?]
    simp only [hp, hc, if_true]
  · simp at h

theorem readMonth?_padded {n : Nat} (h1 : 1 ≤ n) (h2 : n ≤ 12) (cs : List Char) :
    readMonth? (padded 2 n ++ '-' :: cs) = some (n, '-' :: cs) := by
  -- A rule is for a few numbers, which are tried one by one.
  have hall : ∀ k ∈ List.range' 1 12,
      readsAs [('1', asciiIn? 0 2), ('0', asciiIn? 1 9)] k = true := by decide
  exact readPart?_padded (hall n (List.mem_range'_1.mpr ⟨h1, by omega⟩)) _ rfl cs

theorem readDay?_padded {n : Nat} (h1 : 1 ≤ n) (h2 : n ≤ 31) (cs : List Char) :
    readDay? (padded 2 n ++ ' ' :: cs) = some (n, ' ' :: cs) := by
  have hall : ∀ k ∈ List.range' 1 31,
      readsAs [('3', asciiIn? 0 1), ('1', digitValue?), ('2', digitValue?), ('0', asciiIn? 1 9),
        (' ', asciiIn? 1 9)] k = true := by decide
  exact readPart?_padded (hall n (List.mem_range'_1.mpr ⟨h1, by omega⟩)) _ (by decide) cs

theorem readHour?_padded {n : Nat} (h : n < 24) (cs : List Char) :
    readHour? (padded 2 n ++ ':' :: cs) = some (n, ':' :: cs) := by
  have hall : ∀ k ∈ List.range 24,
      readsAs [('2', asciiIn? 0 3), ('0', digitValue?), ('1', digitValue?)] k = true := by decide
  exact readPart?_padded (hall n (List.mem_range.mpr h)) _ rfl cs

theorem readMinute?_padded {n : Nat} (h : n < 60) (cs : List Char) :
    readMinute? (padded 2 n ++ ':' :: cs) = some (n, ':' :: cs) := by
  have hall : ∀ k ∈ List.range 60, readsAs sixtyRule k = true := by decide
  exact readPart?_padded (hall n (List.mem_range.mpr h)) _ rfl cs

theorem readSecond?_padded {n : Nat} (h : n < 60) (cs : List Char) :
    readSecond? (padded 2 n ++ '.' :: cs) = some (n, '.' :: cs) := by
  have hall : ∀ k ∈ List.range 60, readsAs (('6', asciiIn? 0 1) :: sixtyRule) k = true := by decide
  exact readPart?_padded (hall n (List.mem_range.mpr h)) _ rfl cs

theorem readFraction?_padded {n : Nat} (h : n < 1000000) :
    readFraction? (padded 6 n) = some (n, []) := by
  have hlen : (padded 6 n).length = 6 := length_padded (by decide) h
  have htake : (padded 6 n).take 6 = padded 6 n := List.take_of_length_le (by omega)
  have hall : ((padded 6 n).takeWhile Char.isDigit) = padded 6 n :=
    List.takeWhile_eq_self_iff.mpr fun _ hc => isDigit_of_mem_padded hc
  have hne : padded 6 n ≠ [] := fun hc => by simp [hc] at hlen
  simp only [readFraction?, htake, hall, hne, if_false, digitsValue_padded, hlen]
  rw [List.drop_eq_nil_of_le (by omega)]
  simp

theorem dropWhile_isBlank_padded {w n : Nat} (hw : 0 < w) (hn : n < 10 ^ w) (cs : List Char) :
    (' ' :: (padded w n ++ cs)).dropWhile isBlank = padded w n ++ cs := by
  have hlen := length_padded hw hn
  cases hp : padded w n with
  | nil => rw [hp] at hlen; simp at hlen; omega
  | cons c ds =>
    have hc : isBlank c = false :=
      isBlank_of_isDigit (isDigit_of_mem_padded (hp ▸ List.mem_cons_self))
    rw [List.dropWhile_cons_of_pos (by decide), List.cons_append,
      List.dropWhile_cons_of_neg (by simp [hc])]

/-! ## Reading a stamp back -/

theorem readYear?_digits {y : Nat} (h1 : 1000 ≤ y) (h2 : y ≤ 9999) (cs : List Char) :
    readYear? (digits y ++ '-' :: cs) = some (y, cs) := by
  have hlen : (digits y).length = 4 := length_digits_eq (k := 3) h1 (by omega)
  match hd : digits y, hlen with
  | [a, b, c, d], _ =>
    have hdig : ∀ x ∈ [a, b, c, d], digitValue? x = some (x.toNat - 0x30) := fun x hx =>
      digitValue?_of_isDigit (isDigit_of_mem_digits (hd ▸ hx))
    have hval : digitsValue [a, b, c, d] = y := by rw [← hd, digitsValue_digits]
    simp only [digitsValue, List.foldl_cons, List.foldl_nil] at hval
    simp only [List.cons_append, List.nil_append, readYear?, hdig a (by simp), hdig b (by simp),
      hdig c (by simp), hdig d (by simp), Option.bind_eq_bind, Option.bind_some]
    congr 2
    omega

theorem readForm?_stampChars {t : WallTime} (ht : t.IsValid) (hy : 1000 ≤ t.year) :
    readForm? (stampChars t) = some (t, []) := by
  have hday : t.day ≤ 31 := Nat.le_trans ht.date.day_le (daysInMonth_le _ _)
  have hhour : t.hour < 10 ^ 2 := by have := ht.hour_lt; omega
  rw [stampChars_eq, stampTail]
  simp only [readForm?, Option.bind_eq_bind, Option.bind_some, List.drop_succ_cons, List.drop_zero,
    readYear?_digits hy ht.date.year_le, readMonth?_padded ht.date.month_pos ht.date.month_le,
    readDay?_padded ht.date.day_pos hday, dropWhile_isBlank_padded (by decide) hhour,
    readHour?_padded ht.hour_lt, readMinute?_padded ht.minute_lt, readSecond?_padded ht.second_lt,
    readFraction?_padded ht.microsecond_lt]

/-- **A stamp from year 1000 on denotes the reading it was made from.** -/
theorem parseStamp_stampChars {t : WallTime} (ht : t.IsValid) (hy : 1000 ≤ t.year) :
    parseStamp (String.ofList (stampChars t)) = .ok ⟨t, .offset 0⟩ := by
  have hs := ht.second_lt
  have hd := ht.date.day_le
  simp only [parseStamp, String.toList_ofList, readForm?_stampChars ht hy, ne_eq, not_true,
    if_false, checked]
  rw [if_neg (by omega), if_neg (by omega), if_neg (by omega)]
  rfl

/-- A year of fewer than four digits leaves its hyphen among the first four characters. -/
theorem readYear?_early {y : Nat} (h : y < 1000) (cs : List Char) :
    readYear? (digits y ++ '-' :: cs) = none := by
  have hlen : (digits y).length ≤ 3 := (length_digits_le_iff (by decide)).mpr (by omega)
  have hne := digits_ne_nil y
  have hyphen : digitValue? '-' = none := by decide
  unfold readYear?
  -- One of the four characters that are read is the hyphen.
  split
  · next a b c d rest heq =>
    match hd : digits y with
    | [] => exact absurd hd hne
    | [_] =>
      obtain ⟨-, rfl, -⟩ : _ ∧ '-' = b ∧ _ := by simpa [hd] using heq
      simp [hyphen]
    | [_, _] =>
      obtain ⟨-, -, rfl, -⟩ : _ ∧ _ ∧ '-' = c ∧ _ := by simpa [hd] using heq
      simp [hyphen]
    | [_, _, _] =>
      obtain ⟨-, -, -, rfl, -⟩ : _ ∧ _ ∧ _ ∧ '-' = d ∧ _ := by simpa [hd] using heq
      simp [hyphen]
    | _ :: _ :: _ :: _ :: _ =>
      rw [hd] at hlen
      simp only [List.length_cons] at hlen
      omega
  · rfl

/-- **A stamp of a year before 1000 is refused.** -/
theorem parseStamp_early {t : WallTime} (h : t.year < 1000) :
    parseStamp (String.ofList (stampChars t))
      = .error (.mismatch (String.ofList (stampChars t))) := by
  simp only [parseStamp, String.toList_ofList, stampChars_eq, readForm?, readYear?_early h,
    Option.bind_eq_bind, Option.bind_none]

/-! ## The order of stamps -/

theorem compare_cons_self {α : Type _} [Ord α] [Std.ReflOrd α] (c : α) (cs ds : List α) :
    compare (c :: cs) (c :: ds) = compare cs ds := by
  rw [List.compare_cons_cons, Std.ReflOrd.compare_self, Ordering.eq_then]

/-- Texts that begin with a numeral and a hyphen are ordered by the numerals, as texts, first: a
hyphen comes before every digit. -/
theorem compare_numeral_hyphen {ms ns : List Char} (hm : ∀ c ∈ ms, c.isDigit = true)
    (hn : ∀ c ∈ ns, c.isDigit = true) (cs ds : List Char) :
    compare (ms ++ '-' :: cs) (ns ++ '-' :: ds) = (compare ms ns).then (compare cs ds) := by
  have hyphen {c : Char} (hc : c.isDigit = true) :
      compare '-' c = .lt ∧ compare c '-' = .gt := by
    have := isDigit_iff.mp hc
    have hh : '-'.toNat = 45 := rfl
    rw [compare_char, compare_char, Nat.compare_eq_lt, Nat.compare_eq_gt]
    omega
  induction ms generalizing ns with
  | nil =>
    cases ns with
    | nil => rw [List.nil_append, List.nil_append, compare_cons_self]; rfl
    | cons n ns =>
      rw [List.nil_append, List.cons_append, List.compare_cons_cons,
        (hyphen (hn n List.mem_cons_self)).1]
      rfl
  | cons m ms ih =>
    cases ns with
    | nil =>
      rw [List.nil_append, List.cons_append, List.compare_cons_cons,
        (hyphen (hm m List.mem_cons_self)).2]
      rfl
    | cons n ns =>
      rw [List.cons_append, List.cons_append, List.compare_cons_cons, List.compare_cons_cons,
        ih (fun c hc => hm c (List.mem_cons_of_mem _ hc))
          (fun c hc => hn c (List.mem_cons_of_mem _ hc)), Ordering.then_assoc]

theorem compare_padded_append {w m n : Nat} (hw : 0 < w) (hm : m < 10 ^ w) (hn : n < 10 ^ w)
    (cs ds : List Char) :
    compare (padded w m ++ cs) (padded w n ++ ds) = (compare m n).then (compare cs ds) := by
  rw [compare_append (by rw [length_padded hw hm, length_padded hw hn]), compare_padded hw hm hn]

/-- The order of readings of one year. -/
def tailOrder (t u : WallTime) : Ordering :=
  (compare t.month u.month).then <| (compare t.day u.day).then <|
    (compare t.hour u.hour).then <| (compare t.minute u.minute).then <|
      (compare t.second u.second).then <| compare t.microsecond u.microsecond

theorem compare_stampTail {t u : WallTime} (ht : t.IsValid) (hu : u.IsValid) :
    compare (stampTail t) (stampTail u) = tailOrder t u := by
  have small {t : WallTime} (ht : t.IsValid) :
      t.month < 10 ^ 2 ∧ t.day < 10 ^ 2 ∧ t.hour < 10 ^ 2 ∧ t.minute < 10 ^ 2 ∧
        t.second < 10 ^ 2 := by
    have := ht.date.month_le
    have := Nat.le_trans ht.date.day_le (daysInMonth_le _ _)
    have := ht.hour_lt
    have := ht.minute_lt
    have := ht.second_lt
    omega
  obtain ⟨h1, h2, h3, h4, h5⟩ := small ht
  obtain ⟨k1, k2, k3, k4, k5⟩ := small hu
  simp only [stampTail, tailOrder, compare_cons_self,
    compare_padded_append (show 0 < 2 by decide) h1 k1,
    compare_padded_append (show 0 < 2 by decide) h2 k2,
    compare_padded_append (show 0 < 2 by decide) h3 k3,
    compare_padded_append (show 0 < 2 by decide) h4 k4,
    compare_padded_append (show 0 < 2 by decide) h5 k5,
    compare_padded (show 0 < 6 by decide) ht.microsecond_lt hu.microsecond_lt]

/-- **Stamps are ordered by their year numerals, as texts, and then by the rest.** -/
theorem compare_stampChars {t u : WallTime} (ht : t.IsValid) (hu : u.IsValid) :
    compare (stampChars t) (stampChars u)
      = (compare (digits t.year) (digits u.year)).then (tailOrder t u) := by
  rw [stampChars_eq, stampChars_eq,
    compare_numeral_hyphen (fun _ => isDigit_of_mem_digits) (fun _ => isDigit_of_mem_digits),
    compare_stampTail ht hu]

/-- The order of two stamps is that of their instants if and only if their year numerals are in the
order of the years. -/
theorem compare_stampChars_eq_iff {t u : WallTime} (ht : t.IsValid) (hu : u.IsValid) :
    compare (stampChars t) (stampChars u) = compare t.micros u.micros ↔
      compare (digits t.year) (digits u.year) = compare t.year u.year := by
  rw [compare_stampChars ht hu, WallTime.compare_micros ht hu]
  show _ = (compare t.year u.year).then (tailOrder t u) ↔ _
  by_cases h : t.year = u.year
  · simp [h]
  -- Years that differ have numerals that differ, so neither order gets to the rest.
  · have hyear : compare t.year u.year ≠ .eq := fun hc => h (Nat.compare_eq_eq.mp hc)
    have htext : compare (digits t.year) (digits u.year) ≠ .eq := by
      intro hc
      have heq := Std.LawfulEqOrd.eq_of_compare hc
      exact h (by rw [← digitsValue_digits t.year, heq, digitsValue_digits])
    cases hy : compare t.year u.year <;>
      cases hx : compare (digits t.year) (digits u.year) <;> simp_all

/-- Year numerals of one length are in the order of the years. -/
theorem compare_year_digits {y z : Nat} (h : (digits y).length = (digits z).length) :
    compare (digits y) (digits z) = compare y z := by
  rw [compare_digits h (fun _ => isDigit_of_mem_digits) (fun _ => isDigit_of_mem_digits),
    digitsValue_digits, digitsValue_digits]

/-- **From year 1000 on, stamps are in the order of the readings.** -/
theorem compare_stamps {t u : WallTime} (ht : t.IsValid) (hu : u.IsValid) (hyt : 1000 ≤ t.year)
    (hyu : 1000 ≤ u.year) :
    compare (String.ofList (stampChars t)) (String.ofList (stampChars u))
      = compare t.micros u.micros := by
  have h4 {t : WallTime} (ht : t.IsValid) (h : 1000 ≤ t.year) : (digits t.year).length = 4 :=
    length_digits_eq (k := 3) h (by have := ht.date.year_le; omega)
  rw [compare_toList, String.toList_ofList, String.toList_ofList, compare_stampChars_eq_iff ht hu]
  exact compare_year_digits (by rw [h4 ht hyt, h4 hu hyu])

theorem compare_natCast (m n : Nat) : compare (m : Int) (n : Int) = compare m n := by
  show compareOfLessAndEq (m : Int) n = compareOfLessAndEq m n
  simp only [compareOfLessAndEq, Int.ofNat_lt, Int.natCast_inj]

/-! ## Stamps of moments -/

/-- A moment with a UTC form has a stamp, which shows a valid reading at the same instant. -/
theorem exists_stamp {m u : Moment} (hm : m.wall.IsValid) (h : ensureUtc m = .ok u) :
    u = ⟨u.wall, .offset 0⟩ ∧ u.wall.IsValid ∧ u.instant = u.wall.micros ∧
      stamp m = .ok (String.ofList (stampChars u.wall)) := by
  have hutc := ensureUtc_eq_ok.mp h
  obtain ⟨hz, hv, -⟩ := Moment.toUtc?_spec hm hutc
  have hu : u = ⟨u.wall, .offset 0⟩ := by rw [← hz]
  refine ⟨hu, hv, ?_, stamp_of_toUtc? hutc⟩
  rw [hu]
  exact Moment.instant_utc u.wall

/--
**When stamps can be read back and sorted.**

A moment that has a UTC form has a stamp. The stamp denotes that form if and only if its year is at
least 1000; an earlier one is refused by the reader. Two stamps are in the order of their instants
if and only if their year numerals, compared as texts, are in the order of the years, which is so
for all years from 1000 on.
-/
theorem stamp_reads_back_and_sorts_iff {m u m₁ u₁ m₂ u₂ : Moment} (hm : m.wall.IsValid)
    (hm₁ : m₁.wall.IsValid) (hm₂ : m₂.wall.IsValid) (hu : ensureUtc m = .ok u)
    (hu₁ : ensureUtc m₁ = .ok u₁) (hu₂ : ensureUtc m₂ = .ok u₂) :
    ∃ s s₁ s₂, stamp m = .ok s ∧ stamp m₁ = .ok s₁ ∧ stamp m₂ = .ok s₂ ∧
      (parseStamp s = .ok u ↔ 1000 ≤ u.wall.year) ∧
      (u.wall.year < 1000 → parseStamp s = .error (.mismatch s)) ∧
      (compare s₁ s₂ = compare u₁.instant u₂.instant ↔
        compare (digits u₁.wall.year) (digits u₂.wall.year)
          = compare u₁.wall.year u₂.wall.year) ∧
      (1000 ≤ u₁.wall.year → 1000 ≤ u₂.wall.year →
        compare s₁ s₂ = compare u₁.instant u₂.instant) := by
  obtain ⟨heq, hv, -, hs⟩ := exists_stamp hm hu
  obtain ⟨-, hv₁, hi₁, hs₁⟩ := exists_stamp hm₁ hu₁
  obtain ⟨-, hv₂, hi₂, hs₂⟩ := exists_stamp hm₂ hu₂
  have horder := compare_stampChars_eq_iff hv₁ hv₂
  rw [← String.toList_ofList (l := stampChars u₁.wall),
    ← String.toList_ofList (l := stampChars u₂.wall), ← compare_toList, ← compare_natCast,
    ← hi₁, ← hi₂] at horder
  refine ⟨_, _, _, hs, hs₁, hs₂, ⟨?_, ?_⟩, fun h => parseStamp_early h,
    horder, ?_⟩
  · intro h
    rcases Nat.lt_or_ge u.wall.year 1000 with hy | hy
    · rw [parseStamp_early hy] at h
      exact absurd h (by simp)
    · exact hy
  · intro h
    rw [parseStamp_stampChars hv h, ← heq]
  · intro h₁ h₂
    rw [compare_stamps hv₁ hv₂ h₁ h₂, hi₁, hi₂, compare_natCast]

/-- Half an hour past midnight of New Year 1000, on a clock one hour ahead of UTC, is stamped in
year 999. -/
theorem stamp_reads_back_and_sorts_new_year_1000 :
    ∃ s s₁ s₂, stamp ⟨⟨1000, 1, 1, 0, 30, 0, 0⟩, .offset 3600⟩ = .ok s ∧
      stamp ⟨⟨1000, 1, 1, 0, 0, 0, 0⟩, .unknown⟩ = .ok s₁ ∧
      stamp ⟨⟨9999, 12, 31, 23, 59, 59, 999999⟩, .silent⟩ = .ok s₂ ∧
      parseStamp s = .error (.mismatch s) ∧ compare s₁ s₂ = .lt := by
  have hu : ensureUtc ⟨⟨1000, 1, 1, 0, 30, 0, 0⟩, .offset 3600⟩
      = .ok ⟨⟨999, 12, 31, 23, 30, 0, 0⟩, .offset 0⟩ := rfl
  have hu₁ : ensureUtc ⟨⟨1000, 1, 1, 0, 0, 0, 0⟩, .unknown⟩
      = .ok ⟨⟨1000, 1, 1, 0, 0, 0, 0⟩, .offset 0⟩ := rfl
  have hu₂ : ensureUtc ⟨⟨9999, 12, 31, 23, 59, 59, 999999⟩, .silent⟩
      = .ok ⟨⟨9999, 12, 31, 23, 59, 59, 999999⟩, .offset 0⟩ := rfl
  obtain ⟨s, s₁, s₂, h, h₁, h₂, -, hearly, -, hlate⟩ :=
    stamp_reads_back_and_sorts_iff (by decide) (by decide) (by decide) hu hu₁ hu₂
  exact ⟨s, s₁, s₂, h, h₁, h₂, hearly (by decide), hlate (by decide) (by decide)⟩

/-- The stamp of the last second of year 999 is not read back, and sorts behind year 1000. -/
theorem stamp_of_year_999 :
    ∃ s₁ s₂, ensureUtc ⟨⟨999, 12, 31, 23, 59, 59, 0⟩, .offset 0⟩
        = .ok ⟨⟨999, 12, 31, 23, 59, 59, 0⟩, .offset 0⟩ ∧
      stamp ⟨⟨999, 12, 31, 23, 59, 59, 0⟩, .offset 0⟩ = .ok s₁ ∧
      stamp ⟨⟨1000, 1, 1, 0, 0, 0, 0⟩, .offset 0⟩ = .ok s₂ ∧
      parseStamp s₁ ≠ .ok ⟨⟨999, 12, 31, 23, 59, 59, 0⟩, .offset 0⟩ ∧
      compare s₁ s₂ = .gt := by
  refine ⟨"999-12-31 23:59:59.000000", "1000-01-01 00:00:00.000000", rfl, ?_, ?_, ?_, ?_⟩ <;> decide

end PerfLedger.Time
