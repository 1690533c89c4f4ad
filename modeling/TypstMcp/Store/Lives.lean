/-
Store.Lives -- a store over crashes and openings

A store lives through any number of cycles: its threads run interleaved, the process
dies between two calls, an opening may itself be cut short any number of times, and
one comes to its end.  What a step may be, which programs are started, and where a
crash is allowed are parameters, so that a result can say which runs it is about.

* `Fallen`: a crash, and the openings cut short after it.
* `Life`: the store as each opening hands it out.
-/
import TypstMcp.Store.Layout

namespace TypstMcp.Store

open TypstMcp.Theory TypstMcp.Theory.Table
open TypstMcp.Auth (TenantId)

set_option autoImplicit false
set_option linter.unusedSectionVars false

variable {T : Type} [DecidableEq T]

/-- Any choice of the environment. -/
def anyChoice (_ : Choice) : Prop := True

section Lives

variable (limits : Limits) (codec : MetaCodec) (boot : T) (mayCrash : World T → Prop)

/-- The store once the process has died, perhaps again in the middle of openings. -/
inductive Fallen : World T → World T → Prop
  | crashed {w : World T} (may : mayCrash w) : Fallen w w.crash
  | again {w v v' : World T} (past : Fallen w v)
      (begun : (openStore limits codec).Begun (answers anyChoice boot) v v') (may : mayCrash v') :
      Fallen w v'.crash

/-- An opening of the store that comes to its end. -/
abbrev Opens (v w' : World T) : Prop :=
  Alone anyChoice boot (openStore limits codec) v (.ok ()) w'

/-- No call is running. -/
def idleConf (w : World T) : StoreConf T := ⟨w, fun _ => none⟩

variable (step : CallStep Call Reply T (World T))
variable (admits : T → StoreProg Outcome → World T → Prop)

/-- The store on an empty volume, or as an opening hands it out after a crash. -/
inductive Life : World T → Prop
  | fresh : Life World.fresh
  | reopened {w v w' : World T} {c : StoreConf T} (past : Life w)
      (run : Reaches step admits (idleConf w) c)
      (fallen : Fallen limits codec boot mayCrash c.state v)
      (opened : Opens limits codec boot v w') : Life w'

end Lives

variable {limits : Limits} {codec : MetaCodec} {boot : T} {mayCrash : World T → Prop}
variable {step : CallStep Call Reply T (World T)}
variable {admits : T → StoreProg Outcome → World T → Prop} {w w' v : World T}

/-! ## The shape of the tree, whatever runs and whatever crashes -/

theorem laid_run (steps : ∀ t c s reply s', step t c s reply s' → answers anyChoice t c s reply s')
    (ops : ∀ t p s, admits t p s → ∃ op : Op, p = op.program limits codec) {c : StoreConf T}
    (laid : Laid w.disk) (run : Reaches step admits (idleConf w) c) : Laid c.state.disk := by
  have each : ∀ t c (s : World T) reply s', c.Tidy False → Laid s.disk →
      step t c s reply s' → Laid s'.disk := by
    intro t c s reply s' tidy laid answered
    exact laid_step tidy laid (steps t c s reply s' answered)
  refine (reaches_calls each ?_ laid ?_ run).1
  · intro t p s admitted
    obtain ⟨op, rfl⟩ := ops t p s admitted
    exact tidy_program op fun no => no.elim
  · intro t p found
    simp [idleConf] at found

theorem laid_fallen (laid : Laid w.disk) (fallen : Fallen limits codec boot mayCrash w v) :
    Laid v.disk := by
  induction fallen with
  | crashed _ => exact laid
  | again _ begun _ ih =>
      refine begun.keeps (fun s => Laid s.disk) ?_ (tidy_openStore False) ih
      intro c s reply s' tidy laid answered
      exact laid_step tidy laid answered

theorem laid_opened (laid : Laid v.disk) (opened : Opens limits codec boot v w') :
    Laid w'.disk := by
  refine opened.keeps (fun s => Laid s.disk) ?_ (tidy_openStore False) laid
  intro c s reply s' tidy laid answered
  exact laid_step tidy laid answered

/-- **The tree of a store keeps its shape through every life.** -/
theorem laid_life (steps : ∀ t c s reply s', step t c s reply s' → answers anyChoice t c s reply s')
    (ops : ∀ t p s, admits t p s → ∃ op : Op, p = op.program limits codec)
    (life : Life limits codec boot mayCrash step admits w) : Laid w.disk := by
  induction life with
  | fresh => exact laid_fresh
  | reopened _ run fallen opened ih =>
      exact laid_opened (laid_fallen (laid_run steps ops ih run) fallen) opened

end TypstMcp.Store
