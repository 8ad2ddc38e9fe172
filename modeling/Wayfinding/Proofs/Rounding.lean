import Mathlib.Order.GaloisConnection.Basic
import Wayfinding.Settings

namespace Wayfinding

namespace Duration

theorem nanoseconds_injective : Function.Injective nanoseconds := by
  rintro ⟨_⟩ ⟨_⟩ rfl
  rfl

instance : PartialOrder Duration := .lift nanoseconds nanoseconds_injective

theorem le_iff {first second : Duration} : first ≤ second ↔ first.nanoseconds ≤ second.nanoseconds := Iff.rfl

/-- Rounding up is adjoint to reading milliseconds. -/
theorem gc_ceilMilliseconds : GaloisConnection ceilMilliseconds ofMilliseconds := by
  intro duration milliseconds
  simp only [le_iff, ceilMilliseconds, ofMilliseconds]
  omega

theorem ceilMilliseconds_ofMilliseconds (milliseconds : Nat) :
    (ofMilliseconds milliseconds).ceilMilliseconds = milliseconds := by
  simp only [ceilMilliseconds, ofMilliseconds]
  omega

theorem ceilMilliseconds_eq_zero {duration : Duration} : duration.ceilMilliseconds = 0 ↔ duration = ⟨0⟩ := by
  simp only [ceilMilliseconds, ← nanoseconds_injective.eq_iff]
  omega

end Duration

/-- A duration in words: whole seconds, and the nanoseconds beyond them. -/
structure Timespan where
  seconds : BitVec 64
  subsecond : BitVec 32
  subsecond_lt : subsecond.toNat < 1000000000

namespace Timespan

def duration (span : Timespan) : Duration := .ofSeconds span.seconds.toNat span.subsecond.toNat

/-- Words of 64 bits do not have room for the nanoseconds. -/
def nanoseconds (span : Timespan) : BitVec 128 :=
  span.seconds.setWidth 128 * 1000000000#128 + span.subsecond.setWidth 128

/-- The quotient, and one more if something remains. -/
def ceilMilliseconds (span : Timespan) : BitVec 128 :=
  if span.nanoseconds % 1000000#128 = 0#128 then span.nanoseconds / 1000000#128
  else span.nanoseconds / 1000000#128 + 1#128

/-- The milliseconds in a word of half the width, which is the largest one if they do not fit. -/
def keptMilliseconds (span : Timespan) : BitVec 64 :=
  if span.ceilMilliseconds.toNat < wordLimit then span.ceilMilliseconds.setWidth 64 else .allOnes 64

theorem toNat_subsecond (milliseconds : BitVec 64) :
    ((milliseconds % 1000#64).setWidth 32 * 1000000#32).toNat = milliseconds.toNat % 1000 * 1000000 := by
  have hsecond : (1000#64).toNat = 1000 := rfl
  have hunit : (1000000#32).toNat = 1000000 := rfl
  rw [BitVec.toNat_mul, BitVec.toNat_setWidth, BitVec.toNat_umod, hsecond, hunit]
  omega

def ofMilliseconds (milliseconds : BitVec 64) : Timespan where
  seconds := milliseconds / 1000#64
  subsecond := (milliseconds % 1000#64).setWidth 32 * 1000000#32
  subsecond_lt := by
    rw [toNat_subsecond]
    omega

theorem toNat_nanoseconds (span : Timespan) : span.nanoseconds.toNat = span.duration.nanoseconds := by
  have hseconds := span.seconds.isLt
  have hsubsecond := span.subsecond_lt
  have hunit : (1000000000#128).toNat = 1000000000 := rfl
  change _ = span.seconds.toNat * 1000000000 + span.subsecond.toNat
  rw [nanoseconds, BitVec.toNat_add, BitVec.toNat_mul, BitVec.toNat_setWidth, BitVec.toNat_setWidth, hunit]
  omega

theorem toNat_ceilMilliseconds (span : Timespan) :
    span.ceilMilliseconds.toNat = span.duration.ceilMilliseconds := by
  have hwidth := span.nanoseconds.isLt
  have hunit : (1000000#128).toNat = 1000000 := rfl
  have hone : (1#128).toNat = 1 := rfl
  have hwhole : span.nanoseconds % 1000000#128 = 0#128 ↔ span.nanoseconds.toNat % 1000000 = 0 := by
    rw [← BitVec.toNat_inj, BitVec.toNat_umod, hunit]
    rfl
  rw [Duration.ceilMilliseconds, ← toNat_nanoseconds, ceilMilliseconds]
  split
  · rename_i h
    rw [hwhole] at h
    rw [BitVec.toNat_udiv, hunit]
    omega
  · rename_i h
    rw [hwhole] at h
    rw [BitVec.toNat_add, BitVec.toNat_udiv, hunit, hone]
    omega

theorem toNat_keptMilliseconds (span : Timespan) :
    span.keptMilliseconds.toNat = min span.duration.ceilMilliseconds (wordLimit - 1) := by
  have hlimit : wordLimit = 2 ^ 64 := rfl
  rw [keptMilliseconds, toNat_ceilMilliseconds]
  split
  · rw [BitVec.toNat_setWidth, toNat_ceilMilliseconds]
    omega
  · rw [BitVec.toNat_allOnes]
    omega

theorem duration_ofMilliseconds (milliseconds : BitVec 64) :
    (ofMilliseconds milliseconds).duration = .ofMilliseconds milliseconds.toNat := by
  have hunit : (1000#64).toNat = 1000 := rfl
  rw [duration, ofMilliseconds, toNat_subsecond, BitVec.toNat_udiv, hunit]
  refine congrArg Duration.mk ?_
  omega

end Timespan

namespace Settings

theorem debounce_withDebounce (settings : Settings) (window : Duration) :
    (settings.withDebounce window).debounce = .ofMilliseconds (min window.ceilMilliseconds (wordLimit - 1)) := rfl

theorem debounceMs_withDebounce (settings : Settings) (window : Duration) :
    (settings.withDebounce window).debounceMs = min window.ceilMilliseconds (wordLimit - 1) := rfl

theorem monotone_withDebounce (settings : Settings) :
    Monotone fun window => (settings.withDebounce window).debounce := by
  intro window longer h
  have hceil := Duration.gc_ceilMilliseconds.monotone_l h
  simp only [debounce_withDebounce]
  refine Duration.gc_ceilMilliseconds.monotone_u ?_
  omega

theorem debounce_eq_zero (settings : Settings) (window : Duration) :
    (settings.withDebounce window).debounce = ⟨0⟩ ↔ window = ⟨0⟩ := by
  have hlimit : 1 < wordLimit := by decide
  rw [← Duration.ceilMilliseconds_eq_zero, ← Duration.ceilMilliseconds_eq_zero, debounce_withDebounce,
    Duration.ceilMilliseconds_ofMilliseconds]
  omega

theorem withDebounce_debounce {settings : Settings} (h : settings.debounceMs < wordLimit) :
    settings.withDebounce settings.debounce = settings := by
  have hkept : min settings.debounce.ceilMilliseconds (wordLimit - 1) = settings.debounceMs := by
    rw [debounce, Duration.ceilMilliseconds_ofMilliseconds]
    omega
  rw [withDebounce, hkept]

/-- The window that is kept has the least whole number of milliseconds that is not shorter than the one that was set,
as far as 64 bits go. In words it comes to the same. -/
theorem debounce_rounded_up (settings : Settings) :
    (∀ window, ∃ least, IsLeast {milliseconds | window ≤ Duration.ofMilliseconds milliseconds} least ∧
      (settings.withDebounce window).debounce =
        .ofMilliseconds (if least < wordLimit then least else wordLimit - 1)) ∧
    (Monotone fun window => (settings.withDebounce window).debounce) ∧
    (∀ window, let kept := settings.withDebounce window
      (kept.debounce = ⟨0⟩ ↔ window = ⟨0⟩) ∧ kept.withDebounce kept.debounce = kept ∧
        kept = { settings with debounceMs := kept.debounceMs }) ∧
    ∀ span : Timespan, let kept := settings.withDebounce span.duration
      kept.debounceMs = span.keptMilliseconds.toNat ∧
        kept.debounce = (Timespan.ofMilliseconds span.keptMilliseconds).duration := by
  have hlimit : 1 < wordLimit := by decide
  refine ⟨?_, settings.monotone_withDebounce, ?_, ?_⟩
  · intro window
    refine ⟨window.ceilMilliseconds, Duration.gc_ceilMilliseconds.isLeast_l, ?_⟩
    rw [debounce_withDebounce]
    refine congrArg Duration.ofMilliseconds ?_
    split <;> omega
  · intro window kept
    have hword : kept.debounceMs < wordLimit := by
      rw [debounceMs_withDebounce]
      omega
    exact ⟨settings.debounce_eq_zero window, withDebounce_debounce hword, rfl⟩
  · intro span kept
    have hkept : kept.debounceMs = span.keptMilliseconds.toNat := span.toNat_keptMilliseconds.symm
    refine ⟨hkept, ?_⟩
    rw [Timespan.duration_ofMilliseconds, ← hkept]
    rfl

example : (standard.withDebounce (.ofSeconds (wordLimit - 1) 999999999)).debounceMs = wordLimit - 1 := by decide

end Settings

end Wayfinding
