/-
Theory.Semaphore -- a fair counting semaphore

Permits are free, held, or in the air between a holder and what becomes of its permit.
Whoever finds none waits in a queue; a permit handed on goes to the head of the queue,
and is free only where nobody waits.

`Sound`: no permit is lost or made, and none is free while someone waits.  Each
operation keeps it (`take`, `join`, `leave`, `giveBack`, `handOn`).
-/
import Mathlib.Data.Finset.Card
import Mathlib.Data.List.Nodup

namespace TypstMcp.Theory

set_option autoImplicit false
set_option linter.unusedSectionVars false

/-- The permits of a semaphore, and who waits for one. -/
structure Semaphore (T : Type) where
  free : Nat
  queue : List T := []
  held : Finset T := ∅

namespace Semaphore

variable {T : Type} [DecidableEq T]

/-- A free permit is taken. -/
def take (s : Semaphore T) (t : T) : Semaphore T :=
  { s with free := s.free - 1, held := insert t s.held }

/-- The queue is joined at its end. -/
def join (s : Semaphore T) (t : T) : Semaphore T := { s with queue := s.queue ++ [t] }

/-- The queue is left without a permit. -/
def leave (s : Semaphore T) (t : T) : Semaphore T := { s with queue := s.queue.erase t }

/-- A permit is given back, and is in the air. -/
def giveBack (s : Semaphore T) (t : T) : Semaphore T := { s with held := s.held.erase t }

/-- A permit in the air goes to the head of the queue, or becomes free. -/
def handOn (s : Semaphore T) : Semaphore T :=
  match s.queue with
  | [] => { s with free := s.free + 1 }
  | t :: rest => { s with queue := rest, held := insert t s.held }

/-- Of `size` permits none is lost, with `air` of them in the air. -/
structure Sound (size air : Nat) (s : Semaphore T) : Prop where
  conserved : s.free + s.held.card + air = size
  fair : 0 < s.free → s.queue = []
  nodup : s.queue.Nodup
  apart : ∀ t ∈ s.queue, t ∉ s.held

variable {size air : Nat} {s : Semaphore T} {t : T}

theorem sound_new (size : Nat) : Sound size 0 ({ free := size } : Semaphore T) where
  conserved := rfl
  fair _ := rfl
  nodup := .nil
  apart _ waits := by cases waits

theorem Sound.take (sound : Sound size air s) (available : 0 < s.free) (new : t ∉ s.held) :
    Sound size air (s.take t) where
  conserved := by
    have whole := sound.conserved
    show s.free - 1 + (insert t s.held).card + air = size
    rw [Finset.card_insert_of_notMem new]
    omega
  fair _ := sound.fair available
  nodup := sound.nodup
  apart other waits := by
    have empty : s.queue = [] := sound.fair available
    have waits : other ∈ s.queue := waits
    rw [empty] at waits
    cases waits

theorem Sound.join (sound : Sound size air s) (none_ : s.free = 0) (idle : t ∉ s.held)
    (new : t ∉ s.queue) : Sound size air (s.join t) where
  conserved := sound.conserved
  fair available := by
    have available : 0 < s.free := available
    omega
  nodup := by
    refine List.nodup_append.2 ⟨sound.nodup, List.nodup_singleton t, ?_⟩
    rintro a inside b only rfl
    exact new (List.mem_singleton.1 only ▸ inside)
  apart other waits := by
    rcases List.mem_append.1 waits with before | last
    · exact sound.apart other before
    · exact List.mem_singleton.1 last ▸ idle

theorem Sound.leave (sound : Sound size air s) : Sound size air (s.leave t) where
  conserved := sound.conserved
  fair available := by rw [Semaphore.leave, sound.fair available, List.erase_nil]
  nodup := sound.nodup.erase t
  apart other waits := sound.apart other (List.mem_of_mem_erase waits)

theorem Sound.giveBack (sound : Sound size air s) (holds : t ∈ s.held) :
    Sound size (air + 1) (s.giveBack t) where
  conserved := by
    have card := Finset.card_erase_add_one holds
    have whole := sound.conserved
    show s.free + (s.held.erase t).card + (air + 1) = size
    omega
  fair := sound.fair
  nodup := sound.nodup
  apart other waits inside := sound.apart other waits (Finset.mem_of_mem_erase inside)

theorem Sound.handOn (sound : Sound size (air + 1) s) : Sound size air s.handOn := by
  obtain ⟨conserved, fair, nodup, apart⟩ := sound
  cases waiting : s.queue with
  | nil =>
      have freed : s.handOn = { s with free := s.free + 1 } := by rw [Semaphore.handOn, waiting]
      rw [freed]
      have whole : s.free + 1 + s.held.card + air = size := by omega
      exact ⟨whole, fun _ => waiting, nodup, apart⟩
  | cons first rest =>
      have given : s.handOn = { s with queue := rest, held := insert first s.held } := by
        rw [Semaphore.handOn, waiting]
      rw [waiting] at fair nodup apart
      have alone := List.nodup_cons.1 nodup
      rw [given]
      refine ⟨?_, fun available => ?_, alone.2, fun other waits inside => ?_⟩
      · show s.free + (insert first s.held).card + air = size
        rw [Finset.card_insert_of_notMem (apart first List.mem_cons_self)]
        omega
      · cases fair available
      · rcases Finset.mem_insert.1 inside with rfl | before
        · exact alone.1 waits
        · exact apart other (List.mem_cons_of_mem _ waits) before

end Semaphore

end TypstMcp.Theory
