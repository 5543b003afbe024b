import CounterPolling.Chunking.PrefixConfig
import CounterPolling.Counter.Id

/-!
# Dividing counters by prefix

A list of counters is divided into shares: one for each prefix item that covers some of
them, in the order of the items, and last the default share with those that no item
covers.
-/

namespace CounterPolling

/-- The name of the share and of the partitions that no prefix item made. -/
def defaultShare : String := "default"

/-- A part of a counter list, and how it is to be read. -/
structure Share (family : CounterFamily) where
  /-- The name of the prefix item, or the default name. -/
  name : String
  /-- Rows in one bulk read, zero for all at once. -/
  chunkSize : Nat
  /-- The counters of the share, ascending. -/
  ids : List (CounterId family)
  deriving DecidableEq

namespace Share

variable {family : CounterFamily}

/-- A share of the given counters, unless there are none. -/
def ofIds (name : String) (chunkSize : Nat) : List (CounterId family) → List (Share family)
  | [] => []
  | ids => [⟨name, chunkSize, CounterId.sort ids⟩]

/-- Divides counters among prefix items; each takes what it covers and leaves the rest. -/
def divide (defaultSize : Nat) :
    List PrefixItem → List (CounterId family) → List (Share family)
  | [], ids => ofIds defaultShare defaultSize ids
  | item :: items, ids =>
    ofIds item.name item.chunkSize (ids.filter fun id => item.covers id.name) ++
      divide defaultSize items (ids.filter fun id => !item.covers id.name)

end Share

/-- The shares of a counter list under a prefix configuration. -/
def PrefixConfig.split {family : CounterFamily} (config : PrefixConfig) (defaultSize : Nat)
    (ids : List (CounterId family)) : List (Share family) :=
  Share.divide defaultSize config.items ids

end CounterPolling
