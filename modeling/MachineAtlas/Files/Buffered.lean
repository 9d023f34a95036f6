-- SUMMARY: Writing to a device through a buffer of fixed size.
import MachineAtlas.Files.System
/-!
# Buffered writing

Writing to a device through a buffer of fixed size. A device either takes all bytes of a write or
fails and takes none; bytes that it has not taken stay in the buffer.
-/
namespace MachineAtlas

/-- A device in a state, and the bytes that wait for it. -/
structure Buffered (σ : Type) where
  device : σ
  pending : Bytes
  deriving Repr

namespace Buffered

/-- The size of the buffer. -/
def capacity : Nat := 8192

section

variable {σ ε : Type} (put : Bytes → σ → Except ε σ)

/-- Hands the waiting bytes to the device. -/
def flush (b : Buffered σ) : Buffered σ × Except ε Unit :=
  if b.pending.isEmpty then (b, .ok ())
  else match put b.pending b.device with
    | .ok device => (⟨device, []⟩, .ok ())
    | .error e => (b, .error e)

/-- Makes room for `size` bytes. -/
def reserve (b : Buffered σ) (size : Nat) : Buffered σ × Except ε Unit :=
  if capacity - b.pending.length < size then b.flush put else (b, .ok ())

/-- Adds bytes to those that wait. Bytes that fill a whole buffer go straight to the device. -/
def write (b : Buffered σ) (data : Bytes) : Buffered σ × Except ε Unit :=
  match b.reserve put data.length with
  | (b, .error e) => (b, .error e)
  | (b, .ok ()) =>
    if capacity ≤ data.length then
      match put data b.device with
      | .ok device => (⟨device, b.pending⟩, .ok ())
      | .error e => (b, .error e)
    else (⟨b.device, b.pending ++ data⟩, .ok ())

/-- Writes pieces in order, up to the first that fails. -/
def writeAll (b : Buffered σ) : List Bytes → Buffered σ × Except ε Unit
  | [] => (b, .ok ())
  | data :: rest =>
    match b.write put data with
    | (b, .error e) => (b, .error e)
    | (b, .ok ()) => b.writeAll rest

end

end Buffered

end MachineAtlas
