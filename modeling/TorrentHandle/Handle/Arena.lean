import TorrentHandle.Text.Decimal

/-!
An arena of objects with addresses that go stale. An address is a slot and a generation: freeing a
slot moves it to the next generation, so an address is never given out twice and one of a freed
object finds nothing. A slot whose generations are used up is retired. An address also carries the
owner of its arena, so another arena does not take it.
-/

namespace TorrentHandle

open TorrentHandle.Text

/-- Address of an object. -/
structure Address where
  owner : Nat
  index : Nat
  generation : Nat
  deriving DecidableEq

/-- Index, generation and owner. -/
def Address.render (a : Address) : String :=
  Decimal.render a.index ++ "v" ++ Decimal.render a.generation ++ "@" ++ Decimal.render a.owner

/-- Text that names the type and the address. -/
def Address.debugText (a : Address) : String := "NativeAddress(" ++ a.render ++ ")"

/-- One place of an arena. -/
structure Slot (α : Type) where
  generation : Nat
  value : Option α

/-- Objects by address. -/
structure Arena (α : Type) where
  owner : Nat
  slots : Array (Slot α) := #[]
  /-- Slots that can be used again, the latest freed first. -/
  free : List Nat := []
  /-- Number of objects. -/
  live : Nat := 0

def slotLimit : Nat := 0x100000000

def lastGeneration : Nat := 0xffffffff

namespace Arena

variable {α : Type}

def get? (arena : Arena α) (a : Address) : Option α :=
  if a.owner = arena.owner then
    match arena.slots[a.index]? with
    | some slot => if slot.generation = a.generation then slot.value else none
    | none => none
  else none

/-- Puts an object where another one is. -/
def set (arena : Arena α) (a : Address) (value : α) : Arena α :=
  match arena.get? a with
  | some _ =>
    { arena with slots := arena.slots.setIfInBounds a.index ⟨a.generation, some value⟩ }
  | none => arena

/-- Stores an object in the slot freed last, or in a new one. None is left when every slot is taken
or retired. -/
def insert (arena : Arena α) (value : α) : Option Address × Arena α :=
  match arena.free with
  | index :: free =>
    match arena.slots[index]? with
    | some slot =>
      (some ⟨arena.owner, index, slot.generation⟩,
        { arena with
          slots := arena.slots.setIfInBounds index ⟨slot.generation, some value⟩
          free
          live := arena.live + 1 })
    | none => (none, { arena with free })
  | [] =>
    if arena.slots.size < slotLimit then
      (some ⟨arena.owner, arena.slots.size, 1⟩,
        { arena with slots := arena.slots.push ⟨1, some value⟩, live := arena.live + 1 })
    else (none, arena)

/-- Takes the object at an address out. Its slot is free again unless its generations are used
up. -/
def remove (arena : Arena α) (a : Address) : Option α × Arena α :=
  match arena.get? a with
  | none => (none, arena)
  | some value =>
    let live := arena.live - 1
    if a.generation < lastGeneration then
      (some value,
        { arena with
          slots := arena.slots.setIfInBounds a.index ⟨a.generation + 1, none⟩
          free := a.index :: arena.free
          live })
    else
      (some value,
        { arena with slots := arena.slots.setIfInBounds a.index ⟨a.generation, none⟩, live })

end Arena

end TorrentHandle
