import Chip8.Proofs.Listing
import Chip8.Proofs.Machine.Record
import Chip8.Proofs.Machine.Request

/-!
Traces and listings show the same words in the same way.

A trace shows the word that a step fetched, a listing the bytes that stand in memory. Where a step
succeeds, the listing of two bytes at the program counter just before it is the word that the step
executes (`listing_announces_step`), also where the instruction then overwrites itself.
-/

namespace Chip8.Machine

open Numeral

variable {m m' : Machine} {s : Snapshot}

/-- A successful step executes the operation that is listed at the program counter. -/
theorem lines?_of_step (success : step m = (.ok s, m')) :
    s.address = m.cpu.pc ∧
      Listing.lines? m.bus m.cpu.pc 2 =
        .ok [⟨m.cpu.pc, s.operation.hexWord, s.operation.text⟩] := by
  obtain ⟨_, w, executed, word, _, rfl, _⟩ := step_success_cases success
  exact ⟨rfl, Listing.lines?_of_word word⟩

/-- Just before a step that succeeds, a listing of two bytes at the program counter is one line: the
address, and the word and the text of the operation that the snapshot of the step then shows. The
listing changes nothing of the machine, and the line of the trace is the address and that text. -/
theorem listing_announces_step (success : step m = (.ok s, m')) :
    serve (.look (.list m.cpu.pc 2)) m =
        (.ok (.lines [⟨m.cpu.pc, s.operation.hexWord, s.operation.text⟩]), m) ∧
      s.text = taggedHex 6 m.cpu.pc ++ ": " ++ s.operation.text := by
  obtain ⟨address, listed⟩ := lines?_of_step success
  constructor
  · rw [serve, Attempt.ask_apply, Query.answer, listed]
    rfl
  · rw [Snapshot.text, address]

/-- A store of one register that overwrites its own first byte is listed as what it was. -/
theorem overwriting_store_announced :
    serve (.look (.list 0 2)) (ofImage [0xF0, 0x55] (by decide)) =
        (.ok (.lines [⟨0, "F055", "LD [I], V0"⟩]), ofImage [0xF0, 0x55] (by decide)) ∧
      (step (ofImage [0xF0, 0x55] (by decide))).2.bus.peek? 0 = .ok 0 := by
  have success : step (ofImage [0xF0, 0x55] (by decide)) =
      (.ok ⟨0, .ofWord 0xF055, { Cpu.initial 0 with pc := 2, word := 0xF055 }, 1,
        #[⟨.read, 0, 0xF0⟩, ⟨.read, 1, 0x55⟩, ⟨.write, 0, 0⟩]⟩,
        (step (ofImage [0xF0, 0x55] (by decide))).2) := rfl
  have word : (Operation.ofWord 0xF055).hexWord = "F055" := by decide +kernel
  have text : (Operation.ofWord 0xF055).text = "LD [I], V0" := by decide +kernel
  obtain ⟨announced, _⟩ := listing_announces_step success
  rw [word, text] at announced
  exact ⟨announced, rfl⟩

end Chip8.Machine
