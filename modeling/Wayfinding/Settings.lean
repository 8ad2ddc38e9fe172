import Wayfinding.Json.Record

namespace Wayfinding

structure Duration where
  nanoseconds : Nat
deriving DecidableEq, Repr

namespace Duration

def ofSeconds (seconds nanoseconds : Nat) : Duration := ⟨seconds * 1000000000 + nanoseconds⟩

def ofMilliseconds (milliseconds : Nat) : Duration := ⟨milliseconds * 1000000⟩

def seconds (duration : Duration) : Nat := duration.nanoseconds / 1000000000

def subsecond (duration : Duration) : Nat := duration.nanoseconds % 1000000000

/-- The least number of whole milliseconds that is not shorter. -/
def ceilMilliseconds (duration : Duration) : Nat := (duration.nanoseconds + 999999) / 1000000

end Duration

structure Settings where
  /-- How long a cache entry outlives the last event of its navigation. -/
  debounceMs : Nat
  /-- How many envelopes the bus keeps for a subscription. -/
  busCapacity : Nat
  /-- How many errors of a component can wait to be drained. -/
  errorBuffer : Nat
deriving DecidableEq, Repr

namespace Settings

def standard : Settings := ⟨500, 1024, 64⟩

/-- Sets the debounce window. It is kept in whole milliseconds, rounded up, and never beyond 64 bits. -/
def withDebounce (settings : Settings) (window : Duration) : Settings :=
  { settings with debounceMs := min window.ceilMilliseconds (wordLimit - 1) }

def withBusCapacity (settings : Settings) (capacity : Nat) : Settings :=
  { settings with busCapacity := capacity }

def withErrorBuffer (settings : Settings) (capacity : Nat) : Settings :=
  { settings with errorBuffer := capacity }

def debounce (settings : Settings) : Duration := .ofMilliseconds settings.debounceMs

open Json

def toJson (settings : Settings) : Json :=
  .ofMembers [("debounce_ms", .ofNat settings.debounceMs), ("bus_capacity", .ofNat settings.busCapacity),
    ("error_buffer", .ofNat settings.errorBuffer)]

def ofJson? : Nat → Json → Option Settings
  | 0, _ => none
  | _ + 1, value => do
    let [debounceMs, busCapacity, errorBuffer] ←
      value.fields? ["debounce_ms", "bus_capacity", "error_buffer"] | none
    return ⟨← debounceMs.elim (some standard.debounceMs) word?,
      ← busCapacity.elim (some standard.busCapacity) word?,
      ← errorBuffer.elim (some standard.errorBuffer) word?⟩

end Settings

end Wayfinding
