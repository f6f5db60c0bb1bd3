import Chip8.Proofs.Machine.Record
import Chip8.Proofs.Memory.Twin

/-!
What a step depends on: its log names every byte of memory that it looked at.

Two machines are *peers* when they differ in memory alone, and *alike* over a set of addresses when
besides they hold the same bytes there. Whatever is composed of single accesses takes machines that
are alike over the addresses that it reads to machines that are alike again, with the same answer
(`Composed.follows`). So the log of a step names all the memory that its outcome depends on
(`step_depends_on_logged_reads`).
-/

namespace Chip8

namespace Machine

/-- Two machines that may differ in their memories, in where programs start, in what was reported
and in what is pending in the log. Their sources of random values may differ as long as they give
the same values. -/
structure Peers (m n : Machine) : Prop where
  cpu : m.cpu = n.cpu
  cycles : m.cycles = n.cycles
  display : m.display = n.display
  keypad : m.keypad = n.keypad
  random : ∀ k, m.random.value k = n.random.value k
  fontAddress : m.fontAddress = n.fontAddress

/-- Peers whose buses have the same log, map the same addresses and hold the same bytes at some of
them. -/
structure Alike (A : Int → Prop) (m n : Machine) : Prop extends Peers m n where
  bus : m.bus.Twins A n.bus

/-- Machines that are alike over the addresses that an action reads in one of them get the same
answer from it and stay alike. -/
def Follows {α : Type} (x : Attempt Machine α) : Prop :=
  ∀ (A : Int → Prop) (m n : Machine), Alike A m n →
    (∀ access ∈ (x m).2.bus.log, access.kind = .read → A access.address) →
    (x m).1 = (x n).1 ∧ Alike A (x m).2 (x n).2

variable {α β : Type}

theorem follows_onBus {act : Attempt Bus α}
    (twins : ∀ {A b c}, Bus.Twins A b c →
      (∀ access ∈ (act b).2.log, access.kind = .read → A access.address) →
      (act b).1 = (act c).1 ∧ Bus.Twins A (act b).2 (act c).2) :
    Follows (onBus act) := by
  intro A m n alike reads
  rw [onBus_apply] at reads
  obtain ⟨answers, after⟩ := twins alike.bus reads
  rw [onBus_apply, onBus_apply]
  exact ⟨answers, { alike with bus := after }⟩

/-- What an action reads first it has still read when it is done. -/
theorem Follows.bind {x : Attempt Machine α} {f : α → Attempt Machine β} (hx : Follows x)
    (hf : ∀ a, Follows (f a))
    (accesses : ∀ a, (f a).Leads fun m m' => m.bus.Accessed m'.bus) : Follows (x >>= f) := by
  intro A m n alike reads
  rw [Attempt.bind_apply] at reads
  rw [Attempt.bind_apply, Attempt.bind_apply]
  -- Later accesses take nothing off the log, so what `x` reads is among what both read.
  have start := hx A m n alike
  cases first : x m with
  | mk result m' =>
      cases second : x n with
      | mk result' n' =>
          rw [first] at reads
          rw [first, second] at start
          cases result with
          | ok a =>
              obtain ⟨rfl, after⟩ := start fun access mem => reads access
                (Array.mem_toList_iff.mp ((accesses a m').log_grows.subset
                  (Array.mem_toList_iff.mpr mem)))
              exact hf a A m' n' after reads
          | error e =>
              obtain ⟨rfl, after⟩ := start reads
              exact ⟨rfl, after⟩

/-- What is put together from accesses depends on nothing but what it reads. -/
theorem Composed.follows {x : Attempt Machine α} (h : Composed x) : Follows x := by
  induction h with
  | pure a => exact fun _ _ _ alike _ => ⟨rfl, alike⟩
  | view f =>
      intro A m n alike _
      refine ⟨?_, alike⟩
      simp only [Attempt.view_apply, alike.cpu, alike.keypad, alike.fontAddress]
  | onCpu act =>
      intro A m n alike _
      rw [onCpu_apply, onCpu_apply, alike.cpu]
      exact ⟨rfl, { alike with cpu := rfl }⟩
  | onDisplay act =>
      intro A m n alike _
      rw [onDisplay_apply, onDisplay_apply, alike.display]
      exact ⟨rfl, { alike with display := rfl }⟩
  | drawRandom =>
      intro A m n alike _
      rw [drawRandom_apply, drawRandom_apply]
      refine ⟨congrArg Except.ok (alike.random 0), { alike with random := fun k => ?_ }⟩
      exact alike.random (k + 1)
  | read a => exact follows_onBus fun twins reads => twins.read a reads
  | write a v => exact follows_onBus fun twins _ => twins.write a v
  | bind _ rest first later => exact first.bind later fun a => (rest a).accessed

theorem follows_execute (o : Operation) : Follows o.execute := by
  unfold Operation.execute
  cases o.instruction? with
  | some i => exact (composed_execute i).follows
  | none => exact fun _ _ _ alike _ => ⟨rfl, { alike with }⟩

theorem follows_fetchAndExecute : Follows fetchAndExecute := by
  refine composed_fetch.follows.bind (fun w => ?_) fun w => ?_
  · exact (follows_execute _).bind (fun _ => (Composed.pure _).follows) fun _ _ => .refl
  · exact (accessed_execute _).bind (fun _ _ => .refl) fun before after => before.trans after

/-! ### One step of two machines -/

variable {m n : Machine}

theorem Peers.dropLog (h : Peers m n) : Peers m.dropLog n.dropLog := { h with }

theorem Peers.ite_halt (h : Peers m n) (p : Prop) [Decidable p] :
    Peers (if p then m.halt else m) (if p then n.halt else n) := by
  by_cases halting : p
  · rw [if_pos halting, if_pos halting]
    exact { h with cpu := by simp only [halt, h.cpu] }
  · rw [if_neg halting, if_neg halting]
    exact h

/-- Steps with the same answer and the same pending log have the same log. -/
theorem stepLog_congr (answers : (step m).1 = (step n).1)
    (logs : (step m).2.bus.log = (step n).2.bus.log) : stepLog m = stepLog n := by
  unfold stepLog
  cases first : step m with
  | mk result m' =>
      cases second : step n with
      | mk result' n' =>
          rw [first, second] at answers logs
          obtain rfl : result = result' := answers
          cases result with
          | ok s => rfl
          | error e => exact congrArg Array.toList logs

/-- Peers whose memories agree on what one of them reads in a step get the same answer from it, stay
peers and log the same. -/
theorem Peers.step (peers : Peers m n)
    (twins : m.dropLog.bus.Twins
      (fun a => ∃ x ∈ stepLog m, x.kind = .read ∧ x.address = a) n.dropLog.bus) :
    (Machine.step m).1 = (Machine.step n).1 ∧ Peers (Machine.step m).2 (Machine.step n).2 ∧
      (Machine.step m).2.bus.log = (Machine.step n).2.bus.log := by
  cases running : m.cpu.halted with
  | true =>
      have running' : n.cpu.halted = true := peers.cpu ▸ running
      rw [step_of_halted running, step_of_halted running', peers.cpu]
      exact ⟨rfl, peers.dropLog, rfl⟩
  | false =>
      have running' : n.cpu.halted = false := peers.cpu ▸ running
      -- Fetching and executing follow each other; what remains is counting, or halting.
      have alike : Alike _ m.dropLog n.dropLog := { peers.dropLog with bus := twins }
      have followed := follows_fetchAndExecute _ _ _ alike fun x mem kind =>
        ⟨x, by rw [stepLog_of_running running]; exact Array.mem_toList_iff.mpr mem, kind, rfl⟩
      rw [step_of_running running, step_of_running running', ← peers.cpu]
      cases first : fetchAndExecute m.dropLog with
      | mk result m' =>
          cases second : fetchAndExecute n.dropLog with
          | mk result' n' =>
              rw [first, second] at followed
              obtain ⟨rfl, after⟩ := followed
              cases result with
              | ok o =>
                  have after : Alike _ m' n' := after
                  refine ⟨?_, { after.toPeers with
                    cycles := congrArg (· + o.cycles) after.cycles }, rfl⟩
                  simp only [complete, after.cpu, after.cycles, after.bus.log]
              | error e =>
                  have after : Alike _ m' n' := after
                  refine ⟨rfl, after.toPeers.ite_halt _, ?_⟩
                  simp only [bus_ite_halt, after.bus.log]

/-- The outcome of a step depends on memory only through the bytes that it logs as read. Two
machines that differ in memory alone, where every region leads to a memory of its own, and whose
memories agree at the addresses that one of them reads in a step, get the same snapshot or the same
fault from it, stay the same apart from memory and log the same. Each address then holds in both the
byte that the step wrote there last, or in each what it held before. -/
theorem step_depends_on_logged_reads (rams : m.bus.OfRams) (rams' : n.bus.OfRams)
    (distinct : m.bus.Distinct) (distinct' : n.bus.Distinct)
    (maps : ∀ a, m.bus.Maps a ↔ n.bus.Maps a) (peers : Peers m n)
    (agree : ∀ x ∈ stepLog m, x.kind = .read →
      m.bus.peek? x.address = n.bus.peek? x.address) :
    (step m).1 = (step n).1 ∧ Peers (step m).2 (step n).2 ∧
      (step m).2.bus.log = (step n).2.bus.log ∧ stepLog m = stepLog n ∧
      ∀ a, (∃ byte : UInt8, lastWrite? a (stepLog m) = some (byte.toNat : Int) ∧
            (step m).2.bus.peek? a = .ok byte ∧ (step n).2.bus.peek? a = .ok byte) ∨
          (lastWrite? a (stepLog m) = none ∧
            (step m).2.bus.peek? a = m.bus.peek? a ∧ (step n).2.bus.peek? a = n.bus.peek? a) := by
  have hb := rams.backed
  have hb' := rams'.backed
  have separate := distinct.separate
  have separate' := distinct'.separate
  obtain ⟨answers, after, logs⟩ := peers.step {
    log := rfl
    maps := maps
    backed := hb
    backed' := hb'
    separate := separate
    separate' := separate'
    agree := fun a ⟨x, mem, kind, address⟩ => address ▸ agree x mem kind }
  have same := stepLog_congr answers logs
  have first := records_stepLog hb
  have second := records_stepLog hb'
  rw [← same] at second
  exact ⟨answers, after, logs, same, first.peek?_both hb hb' separate separate' second⟩

/-- A machine about to store two registers at address 3, the last of its memory. -/
def storingAtEnd (second third : UInt8) : Machine :=
  { ofImage [0xF1, 0x55, second, third] (by simp) with cpu := { Cpu.initial 0 with i := 3 } }

/-- Two such machines whose memories differ behind the program fail alike, and the byte stored before
the failure is the same in both. -/
theorem storingAtEnd_fails_alike :
    (step (storingAtEnd 7 8)).1 = .error (.unmapped 4) ∧
      (step (storingAtEnd 9 10)).1 = (step (storingAtEnd 7 8)).1 ∧
      lastWrite? 3 (stepLog (storingAtEnd 7 8)) = some 0 ∧
      (step (storingAtEnd 9 10)).2.bus.peek? 3 = (step (storingAtEnd 7 8)).2.bus.peek? 3 := by
  have log : stepLog (storingAtEnd 7 8) = [⟨.read, 0, 0xF1⟩, ⟨.read, 1, 0x55⟩, ⟨.write, 3, 0⟩] := rfl
  have peers : Peers (storingAtEnd 7 8) (storingAtEnd 9 10) := ⟨rfl, rfl, rfl, rfl, fun _ => rfl, rfl⟩
  obtain ⟨answers, _, _, _, bytes⟩ := step_depends_on_logged_reads
    (ofRams_ofImage [0xF1, 0x55, 7, 8] (by decide)) (ofRams_ofImage [0xF1, 0x55, 9, 10] (by decide))
    (m := storingAtEnd 7 8) (n := storingAtEnd 9 10)
    (by simp [Bus.Distinct, storingAtEnd, ofImage, create, Bus.single])
    (by simp [Bus.Distinct, storingAtEnd, ofImage, create, Bus.single]) (fun _ => Iff.rfl) peers
    (by
      rw [log]
      intro x mem kind
      simp only [List.mem_cons, List.not_mem_nil, or_false] at mem
      rcases mem with rfl | rfl | rfl
      · rfl
      · rfl
      · cases kind)
  refine ⟨rfl, answers.symm, rfl, ?_⟩
  rcases bytes 3 with ⟨byte, _, here, there⟩ | ⟨unwritten, _⟩
  · rw [here, there]
  · rw [log] at unwritten
    cases unwritten

end Machine

end Chip8
