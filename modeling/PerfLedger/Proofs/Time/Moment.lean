import PerfLedger.Time.Moment
import PerfLedger.Proofs.Time.Calendar

/-!
# Clock readings and instants

A reading is valid if it names a date and a time of the day. Valid readings are counted in
microseconds without a gap: every count below the limit is that of a valid reading
(`ofMicros_spec`), and counts are in the order of the readings, part by part (`compare_micros`). So
a moment that was normalised to UTC shows a valid reading again and keeps its instant
(`toUtc?_spec`).
-/

namespace PerfLedger

open Time PerfLedger.Text

namespace Time

instance (y m d : Nat) : Decidable (IsDate y m d) :=
  decidable_of_iff (1 ≤ y ∧ y ≤ 9999 ∧ 1 ≤ m ∧ m ≤ 12 ∧ 1 ≤ d ∧ d ≤ daysInMonth y m)
    ⟨fun ⟨h1, h2, h3, h4, h5, h6⟩ => ⟨h1, h2, h3, h4, h5, h6⟩,
      fun ⟨h1, h2, h3, h4, h5, h6⟩ => ⟨h1, h2, h3, h4, h5, h6⟩⟩

end Time

namespace WallTime

/-- A reading that a clock can show: a date and a time of the day. -/
structure IsValid (t : WallTime) : Prop where
  date : IsDate t.year t.month t.day
  hour_lt : t.hour < 24
  minute_lt : t.minute < 60
  second_lt : t.second < 60
  microsecond_lt : t.microsecond < 1000000

instance (t : WallTime) : Decidable t.IsValid :=
  decidable_of_iff (IsDate t.year t.month t.day ∧ t.hour < 24 ∧ t.minute < 60 ∧ t.second < 60 ∧
      t.microsecond < 1000000)
    ⟨fun ⟨h1, h2, h3, h4, h5⟩ => ⟨h1, h2, h3, h4, h5⟩,
      fun ⟨h1, h2, h3, h4, h5⟩ => ⟨h1, h2, h3, h4, h5⟩⟩

/-- The order of readings, part by part. -/
def order (t u : WallTime) : Ordering :=
  (compare t.year u.year).then <| (compare t.month u.month).then <|
    (compare t.day u.day).then <| (compare t.hour u.hour).then <|
      (compare t.minute u.minute).then <| (compare t.second u.second).then <|
        compare t.microsecond u.microsecond

theorem micros_eq (t : WallTime) :
    t.micros = 1000000 * (60 * (60 * (24 * dayNumber t.year t.month t.day + t.hour) + t.minute)
      + t.second) + t.microsecond := by
  simp only [micros]
  omega

/-- **The counts of valid readings are in the order of the readings.** -/
theorem compare_micros {t u : WallTime} (ht : t.IsValid) (hu : u.IsValid) :
    compare t.micros u.micros = t.order u := by
  rw [micros_eq, micros_eq, compare_places ht.microsecond_lt hu.microsecond_lt,
    compare_places ht.second_lt hu.second_lt, compare_places ht.minute_lt hu.minute_lt,
    compare_places ht.hour_lt hu.hour_lt, compare_dayNumber ht.date hu.date]
  simp only [order, Ordering.then_assoc]

/-- The reading at a count below the limit is valid, and has that count. -/
theorem ofMicros_spec {n : Nat} (h : (n : Int) < microsLimit) :
    (ofMicros n).IsValid ∧ (ofMicros n).micros = n := by
  have hd : n / 86400000000 < dayLimit := by unfold microsLimit at h; omega
  obtain ⟨y, m, d, heq, hdate, hnum⟩ := dateOfNumber_spec hd
  have hof : ofMicros n = ⟨y, m, d, n % 86400000000 / 3600000000,
      n % 86400000000 / 60000000 % 60, n % 86400000000 / 1000000 % 60,
      n % 86400000000 % 1000000⟩ := by
    simp only [ofMicros, heq]
  rw [hof]
  refine ⟨⟨hdate, ?_, ?_, ?_, ?_⟩, ?_⟩
  · show n % 86400000000 / 3600000000 < 24
    omega
  · exact Nat.mod_lt _ (by decide)
  · exact Nat.mod_lt _ (by decide)
  · exact Nat.mod_lt _ (by decide)
  · rw [micros_eq]
    simp only [hnum]
    omega

/-- A reading some seconds earlier is valid, and lies that far back. -/
theorem before?_spec {t u : WallTime} {s : Int} (h : t.before? s = some u) :
    u.IsValid ∧ (u.micros : Int) = t.micros - s * 1000000 := by
  simp only [before?] at h
  split at h
  · next hn =>
    have hlt : ((t.micros - s * 1000000 : Int).toNat : Int) < microsLimit := by omega
    obtain ⟨hv, hm⟩ := ofMicros_spec hlt
    rw [← Option.some.inj h]
    exact ⟨hv, by rw [hm]; omega⟩
  · exact absurd h (by simp)

end WallTime

namespace Moment

variable {m u : Moment}

theorem instant_utc (t : WallTime) : (⟨t, .offset 0⟩ : Moment).instant = t.micros := by
  simp [instant, offsetSeconds]

/-- A moment normalised to UTC: its zone, its reading and its instant. -/
theorem toUtc?_spec (hm : m.wall.IsValid) (h : m.toUtc? = some u) :
    u.zone = .offset 0 ∧ u.wall.IsValid ∧ u.instant = m.instant := by
  unfold toUtc? at h
  split at h
  · next s hz =>
    obtain ⟨t, ht, rfl⟩ := Option.map_eq_some_iff.mp h
    obtain ⟨hv, hmic⟩ := WallTime.before?_spec ht
    refine ⟨rfl, hv, ?_⟩
    rw [instant_utc, hmic, instant, offsetSeconds, hz]
  · next hz =>
    -- A moment without an offset is taken to be in UTC.
    have h0 : m.offsetSeconds = 0 := by
      unfold offsetSeconds
      split
      · next s hs => exact absurd hs (hz s)
      · rfl
    rw [← Option.some.inj h]
    exact ⟨rfl, hm, by rw [markUtc, instant_utc, instant, h0]; simp⟩

end Moment

end PerfLedger
