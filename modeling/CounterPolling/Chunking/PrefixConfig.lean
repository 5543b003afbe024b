import CounterPolling.ConfigError
import CounterPolling.Text.Pieces
import CounterPolling.Text.Unsigned

/-!
# Chunk sizes by counter prefix

Counters may be read in chunks of different sizes, chosen by how their names begin. A
configuration is a list of items such as "IN|OUT:32", separated by semicolons: the
prefixes, a colon, and the chunk size of the counters that the item covers. A counter
belongs to the first item that covers it.
-/

namespace CounterPolling

/-- Prefixes of counter names, and the chunk size of the counters they cover. -/
structure PrefixItem where
  /-- The prefixes, any of which suffices. -/
  prefixes : List String
  /-- Rows in one bulk read, zero for all at once. -/
  chunkSize : Nat
  deriving DecidableEq

namespace PrefixItem

/-- The name of the item and of the partitions made by it: its prefixes with bars between. -/
def name (item : PrefixItem) : String :=
  "|".intercalate item.prefixes

/-- Whether a counter's name begins with one of the prefixes. -/
def covers (item : PrefixItem) (counter : String) : Bool :=
  item.prefixes.any fun start => start.toList.isPrefixOf counter.toList

/-- The text of an item. -/
def render (item : PrefixItem) : String :=
  item.name ++ ":" ++ toString item.chunkSize

/-- Reads an item: at least one prefix before the last colon, a chunk size after it. -/
def ofChars? (cs : List Char) : Option PrefixItem :=
  match Text.splitAtLast ':' cs with
  | none => none
  | some (front, back) =>
    match Text.wordChars? (Text.trimChars back) with
    | none => none
    | some chunkSize =>
      match Text.pieceChars '|' front with
      | [] => none
      | first :: rest => some ⟨(first :: rest).map String.ofList, chunkSize⟩

end PrefixItem

/-- A list of prefix items, the first that covers a counter deciding. -/
structure PrefixConfig where
  /-- The items in order. -/
  items : List PrefixItem
  deriving DecidableEq

namespace PrefixConfig

/-- The configuration that covers no counter. -/
def empty : PrefixConfig := ⟨[]⟩

instance : EmptyCollection PrefixConfig := ⟨empty⟩

/-- Whether there is no item. -/
def isEmpty (config : PrefixConfig) : Bool :=
  config.items.isEmpty

/-- The first item that covers a counter, with its position. -/
def firstCovering (config : PrefixConfig) (counter : String) : Option (Nat × PrefixItem) :=
  (config.items.zipIdx.find? fun entry => entry.1.covers counter).map
    fun entry => (entry.2, entry.1)

/-- The chunk size of the first item with a name. -/
def sizeNamed? (config : PrefixConfig) (name : String) : Option Nat :=
  (config.items.find? fun item => item.name == name).map PrefixItem.chunkSize

/-- Whether two configurations divide counters alike, whatever their sizes. -/
def DivideAlike (a b : PrefixConfig) : Prop :=
  a.items.map PrefixItem.prefixes = b.items.map PrefixItem.prefixes

instance (a b : PrefixConfig) : Decidable (DivideAlike a b) :=
  inferInstanceAs (Decidable (_ = _))

/-- The text of a configuration. -/
def render (config : PrefixConfig) : String :=
  ";".intercalate (config.items.map PrefixItem.render)

/-- Reads a configuration; one malformed item spoils the whole. -/
def parse (s : String) : Except ConfigError PrefixConfig :=
  match (Text.pieceChars ';' s.toList).mapM PrefixItem.ofChars? with
  | some items => .ok ⟨items⟩
  | none => .error (.invalidPrefixConfig s)

end PrefixConfig

end CounterPolling
