/-
Metrics.Tally -- what the counters count

A compile is observed from `start_compile` until its observation is finished or
dropped; both first leave the gauge and then, under the lock, record.  Uploads and
refused credentials are counted in between by whoever meets them, so the tasks'
steps come in any order.  `happened` writes down what each step is about, and the
state is what its log says.

* `Runs.tallied`: the run lemma.
* `metrics_tally`: the counters, the histograms and the gauge after any run.
* `series_bounded`: the label values there can be.
-/
import TypstMcp.Http.ApiError
import TypstMcp.Render.Service

namespace TypstMcp.Metrics

open TypstMcp.Theory TypstMcp.Theory.Table
open TypstMcp.Bundle (BTreeMap)
open TypstMcp.Http (AuthError)
open TypstMcp.Render (Failure)
open TypstMcp.Store (u64Size wrapAdd)

set_option autoImplicit false
set_option linter.unusedSectionVars false
set_option linter.dupNamespace false

/-- Pairs compare by their first component and then by their second. -/
instance labelOrd : Ord (String × String) := lexOrd

/-! ## Histograms -/

/-- The characters of a number's text, `inf` and `NaN` included. -/
def isNumeral (c : Char) : Bool := c.isAlphanum || c = '-' || c = '.'

/-- The operations of `f64` a histogram uses; `ofUsize` is the cast from an integer and `shown` the
text a number displays as. -/
class F64 (F : Type) where
  add : F → F → F
  le : F → F → Bool
  ofUsize : Nat → F
  /-- `digits` divided by ten `places` times. -/
  decimal : (digits places : Nat) → F
  shown : F → String
  shown_numeral : ∀ x, ∀ c ∈ (shown x).toList, isNumeral c = true

section Histogram

variable {F : Type} [F64 F]

def durationBuckets : List F :=
  [F64.decimal 5 2, F64.decimal 1 1, F64.decimal 25 2, F64.decimal 5 1, F64.decimal 1 0,
    F64.decimal 25 1, F64.decimal 5 0, F64.decimal 10 0, F64.decimal 20 0, F64.decimal 60 0]

def pageBuckets : List F := [1, 2, 5, 10, 25, 50, 100, 200].map fun digits => F64.decimal digits 0

def byteBuckets : List F :=
  [16384, 65536, 262144, 1048576, 4194304, 16777216].map fun digits => F64.decimal digits 0

structure Histogram (F : Type) [F64 F] where
  bucketCounts : List Nat := []
  count : Nat := 0
  sum : F := F64.decimal 0 0

/-- The loop over the buckets, each with its count. -/
def tick (value : F) : List F → List Nat → List Nat
  | upper :: buckets, n :: counts =>
      (if F64.le value upper then wrapAdd n 1 else n) :: tick value buckets counts
  | _, counts => counts

def Histogram.observe (histogram : Histogram F) (buckets : List F) (value : F) : Histogram F where
  bucketCounts :=
    tick value buckets (histogram.bucketCounts ++
      List.replicate (buckets.length - histogram.bucketCounts.length) 0)
  count := wrapAdd histogram.count 1
  sum := F64.add histogram.sum value

end Histogram

/-! ## The state -/

/-- `*counts.entry(key).or_default() += 1`. -/
def bump {K : Type} [Ord K] [Std.TransOrd K] (counts : BTreeMap K Nat) (key : K) : BTreeMap K Nat :=
  counts.insert key (wrapAdd (counts.getD key 0) 1)

structure State (F : Type) [F64 F] where
  compiles : BTreeMap (String × String) Nat := ∅
  compileDuration : Histogram F := {}
  compilePages : Histogram F := {}
  pdfBytes : Histogram F := {}
  compileKills : BTreeMap String Nat := ∅
  uploads : BTreeMap String Nat := ∅
  authFailures : BTreeMap String Nat := ∅

/-- The label of a template, from a fixed set whatever the caller's name is. -/
def boundedTemplateLabel (value : String) : String :=
  if value ∈ ["source", "template_validation", "hanso", "ksc", "lenno", "freudenberg"] then value
  else if "tpl_".toList <+: value.toList then "ephemeral"
  else "other"

/-- The pages and bytes of a compile that succeeded, or why it did not. -/
abbrev Summary := Except Failure (Nat × Nat)

def outcomeOf : Summary → String
  | .ok _ => "success"
  | .error (.compiled (.compile _ _)) => "compile_error"
  | .error (.spawn (.timeout _)) => "timeout"
  | .error (.spawn .overloaded) => "overloaded"
  | .error (.spawn (.died _ _)) => "worker_error"
  | .error (.spawn (.io _)) => "worker_error"
  | .error (.compiled (.workspace _)) => "worker_error"
  | .error (.compiled (.protocol _)) => "worker_error"
  | .error _ => "invalid"

/-- Why a worker was killed or lost, if it was. -/
def killOf : Summary → Option String
  | .error (.spawn (.timeout _)) => some "timeout"
  | .error (.spawn (.died _ _)) => some "worker_exit"
  | _ => none

def metricReason : AuthError → String
  | .missing => "missing"
  | .malformed => "malformed"
  | .rejected => "rejected"
  | .unavailable => "unconfigured"
  | .providerUnavailable => "provider_unavailable"

section Update

variable {F : Type} [F64 F]

/-- `finish_compile`, under the lock. -/
def State.finishCompile (state : State F) (template : String) (elapsed : F) (result : Summary) :
    State F where
  compiles := bump state.compiles (template, outcomeOf result)
  compileDuration := state.compileDuration.observe durationBuckets elapsed
  compilePages :=
    match result with
    | .ok (pages, _) => state.compilePages.observe pageBuckets (F64.ofUsize pages)
    | .error _ => state.compilePages
  pdfBytes :=
    match result with
    | .ok (_, bytes) => state.pdfBytes.observe byteBuckets (F64.ofUsize bytes)
    | .error _ => state.pdfBytes
  compileKills :=
    match killOf result with
    | some reason => bump state.compileKills reason
    | none => state.compileKills
  uploads := state.uploads
  authFailures := state.authFailures

/-- The drop of an unfinished observation, under the lock. -/
def State.cancel (state : State F) (template : String) : State F :=
  { state with compiles := bump state.compiles (template, "cancelled") }

def State.upload (state : State F) (kind : String) : State F :=
  { state with uploads := bump state.uploads kind }

def State.authFailure (state : State F) (reason : String) : State F :=
  { state with authFailures := bump state.authFailures reason }

end Update

/-! ## Tasks at work -/

/-- How an observation ends. -/
inductive Ending (F : Type)
  | finished (elapsed : F) (result : Summary)
  | dropped

/-- Where a compile's observation is. -/
inductive Phase (F : Type)
  | observed (template : String)
  /-- It has left the gauge and is to take the lock. -/
  | left (template : String) (ending : Ending F)

def Phase.template {F : Type} : Phase F → String
  | .observed template => template
  | .left template _ => template

structure Metrics (T F : Type) [F64 F] where
  state : State F := {}
  compilesInFlight : Nat := 0
  observations : Table T (Phase F) := ∅

inductive Action (T F : Type)
  | startCompile (t : T) (template : String)
  | leave (t : T) (ending : Ending F)
  | record (t : T)
  | assetUploaded
  | templateUploaded
  | refused (error : AuthError)

/-- What a step is about. -/
inductive Event (F : Type)
  | started (template : String)
  | left (template : String)
  | recorded (template : String) (ending : Ending F)
  | uploaded (kind : String)
  | refused (reason : String)

section Step

variable {T F : Type} [DecidableEq T] [F64 F]

/-- What an event is to the state. -/
def State.apply (state : State F) : Event F → State F
  | .started _ | .left _ => state
  | .recorded template (.finished elapsed result) => state.finishCompile template elapsed result
  | .recorded template .dropped => state.cancel template
  | .uploaded kind => state.upload kind
  | .refused reason => state.authFailure reason

/-- One step of a task, and what it is about; `fetch_sub` and `fetch_add` wrap around. -/
def act (m : Metrics T F) : Action T F → Option (Metrics T F × Event F)
  | .startCompile t template =>
      match m.observations.lookup t with
      | some _ => none
      | none => some ({ m with
          compilesInFlight := wrapAdd m.compilesInFlight 1
          observations := m.observations.insert t (.observed (boundedTemplateLabel template)) },
          .started (boundedTemplateLabel template))
  | .leave t ending =>
      match m.observations.lookup t with
      | some (.observed template) => some ({ m with
          compilesInFlight := wrapAdd m.compilesInFlight (u64Size - 1)
          observations := m.observations.insert t (.left template ending) }, .left template)
      | _ => none
  | .record t =>
      match m.observations.lookup t with
      | some (.left template ending) => some ({ m with
          state := m.state.apply (.recorded template ending)
          observations := m.observations.erase t }, .recorded template ending)
      | _ => none
  | .assetUploaded => some ({ m with state := m.state.upload "asset" }, .uploaded "asset")
  | .templateUploaded =>
      some ({ m with state := m.state.upload "template" }, .uploaded "template")
  | .refused error =>
      some ({ m with state := m.state.authFailure (metricReason error) },
        .refused (metricReason error))

/-- The runs of any number of tasks, with what has happened, oldest first. -/
inductive Runs : Metrics T F → List (Event F) → Prop
  | start : Runs {} []
  | step {m m' : Metrics T F} {log : List (Event F)} {action : Action T F} {event : Event F}
      (past : Runs m log) (acted : act m action = some (m', event)) : Runs m' (log ++ [event])

end Step

/-! ## Counting -/

section Counting

variable {K E : Type} [Ord K] [Std.TransOrd K] [Std.LawfulEqOrd K] [DecidableEq K]
variable {keyOf : E → Option K} {log : List E} {counts : BTreeMap K Nat}

theorem getD_bump (counts : BTreeMap K Nat) (key key' : K) :
    (bump counts key).getD key' 0 =
      if key = key' then wrapAdd (counts.getD key 0) 1 else counts.getD key' 0 := by
  unfold bump
  rw [Std.ExtTreeMap.getD_insert]
  simp only [Std.compare_eq_iff_eq]

theorem mem_bump (counts : BTreeMap K Nat) (key key' : K) :
    key' ∈ bump counts key ↔ key = key' ∨ key' ∈ counts := by
  unfold bump
  rw [Std.ExtTreeMap.mem_insert, Std.compare_eq_iff_eq]

/-- The counters, modulo their width, are the numbers of the log's events under their key, and there
is one for each key that occurs. -/
structure Counts (keyOf : E → Option K) (log : List E) (counts : BTreeMap K Nat) : Prop where
  value : ∀ key, counts.getD key 0 = (log.countP fun e => keyOf e = some key) % u64Size
  occurs : ∀ key, key ∈ counts ↔ ∃ e ∈ log, keyOf e = some key

theorem counts_nil : Counts keyOf ([] : List E) (∅ : BTreeMap K Nat) where
  value key := by simp
  occurs key := by simp

theorem Counts.other (held : Counts keyOf log counts) {e : E} (none_ : keyOf e = none) :
    Counts keyOf (log ++ [e]) counts where
  value key := by
    rw [held.value, List.countP_append]
    simp [none_]
  occurs key := by
    rw [held.occurs]
    simp [or_and_right, exists_or, none_]

theorem Counts.next (held : Counts keyOf log counts) {e : E} {key : K} (mine : keyOf e = some key) :
    Counts keyOf (log ++ [e]) (bump counts key) where
  value key' := by
    rw [getD_bump, List.countP_append]
    by_cases same : key = key'
    · subst same
      rw [if_pos rfl, held.value]
      simp [mine, wrapAdd]
    · rw [if_neg same, held.value]
      simp [mine, same]
  occurs key' := by
    rw [mem_bump, held.occurs]
    simp only [List.mem_append, List.mem_singleton, or_and_right, exists_or, exists_eq_left, mine,
      Option.some.injEq]
    exact or_comm

end Counting

section Measuring

variable {F : Type} [F64 F]

/-- The histogram of these values, in the order they were observed. -/
structure Measured (buckets values : List F) (histogram : Histogram F) : Prop where
  count : histogram.count = values.length % u64Size
  sum : histogram.sum = values.foldl F64.add (F64.decimal 0 0)
  bucketed : ∀ i upper, buckets[i]? = some upper →
    histogram.bucketCounts.getD i 0 = (values.countP fun value => F64.le value upper) % u64Size
  few : histogram.bucketCounts.length ≤ buckets.length

theorem measured_nil (buckets : List F) : Measured buckets [] {} where
  count := rfl
  sum := rfl
  bucketed i upper there := by simp
  few := Nat.zero_le _

theorem tick_spec (value : F) (buckets : List F) (counts : List Nat)
    (same : counts.length = buckets.length) :
    (tick value buckets counts).length = buckets.length ∧
      ∀ i upper, buckets[i]? = some upper → (tick value buckets counts).getD i 0 =
        if F64.le value upper then wrapAdd (counts.getD i 0) 1 else counts.getD i 0 := by
  induction buckets generalizing counts with
  | nil =>
      obtain rfl := List.length_eq_zero_iff.1 same
      exact ⟨rfl, fun i upper there => by simp at there⟩
  | cons first buckets ih =>
      obtain ⟨n, counts, rfl⟩ := List.exists_cons_of_length_eq_add_one same
      obtain ⟨length, later⟩ := ih counts (Nat.succ.inj same)
      refine ⟨congrArg Nat.succ length, fun i upper there => ?_⟩
      cases i with
      | zero =>
          obtain rfl := Option.some.inj there
          rfl
      | succ i => exact later i upper there

/-- The counts are padded to the buckets by the first observation. -/
theorem padded (counts : List Nat) {n : Nat} (few : counts.length ≤ n) :
    (counts ++ List.replicate (n - counts.length) 0).length = n ∧
      ∀ i, (counts ++ List.replicate (n - counts.length) 0).getD i 0 = counts.getD i 0 := by
  refine ⟨by simp; omega, fun i => ?_⟩
  simp only [List.getD_eq_getElem?_getD]
  by_cases inside : i < counts.length
  · rw [List.getElem?_append_left inside]
  · rw [List.getElem?_append_right (by omega), List.getElem?_replicate,
      List.getElem?_eq_none (by omega)]
    split <;> rfl

theorem Measured.observe {buckets values : List F} {histogram : Histogram F}
    (held : Measured buckets values histogram) (value : F) :
    Measured buckets (values ++ [value]) (histogram.observe buckets value) := by
  obtain ⟨long, same⟩ := padded histogram.bucketCounts held.few
  obtain ⟨length, ticked⟩ := tick_spec value buckets _ long
  refine ⟨?_, ?_, fun i upper there => ?_, length.le⟩
  · show wrapAdd histogram.count 1 = _
    rw [held.count]
    simp [wrapAdd]
  · show F64.add histogram.sum value = _
    rw [held.sum, List.foldl_append]
    rfl
  · show (tick value buckets _).getD i 0 = _
    rw [ticked i upper there, same, held.bucketed i upper there, List.countP_append]
    split
    · rename_i below
      simp [below, wrapAdd]
    · rename_i above
      simp [above]

end Measuring

/-! ## What the log says -/

namespace Event

variable {F : Type}

/-- The compile counter an event counts under. -/
def compileKey? : Event F → Option (String × String)
  | .recorded template (.finished _ result) => some (template, outcomeOf result)
  | .recorded template .dropped => some (template, "cancelled")
  | _ => none

def killKey? : Event F → Option String
  | .recorded _ (.finished _ result) => killOf result
  | _ => none

def uploadKey? : Event F → Option String
  | .uploaded kind => some kind
  | _ => none

def refusalKey? : Event F → Option String
  | .refused reason => some reason
  | _ => none

def elapsed? : Event F → Option F
  | .recorded _ (.finished elapsed _) => some elapsed
  | _ => none

def pages? [F64 F] : Event F → Option F
  | .recorded _ (.finished _ (.ok (pages, _))) => some (F64.ofUsize pages)
  | _ => none

def bytes? [F64 F] : Event F → Option F
  | .recorded _ (.finished _ (.ok (_, bytes))) => some (F64.ofUsize bytes)
  | _ => none

def starts (template : String) : Event F → Bool
  | .started template' => template' = template
  | _ => false

def records (template : String) : Event F → Bool
  | .recorded template' _ => template' = template
  | _ => false

end Event

section Runs

variable {T F : Type} [DecidableEq T] [F64 F] {m m' : Metrics T F} {log : List (Event F)}
variable {event : Event F} {action : Action T F}

/-- The state is what the log says. -/
structure Tallied (state : State F) (log : List (Event F)) : Prop where
  compiles : Counts Event.compileKey? log state.compiles
  kills : Counts Event.killKey? log state.compileKills
  uploads : Counts Event.uploadKey? log state.uploads
  refusals : Counts Event.refusalKey? log state.authFailures
  duration : Measured durationBuckets (log.filterMap Event.elapsed?) state.compileDuration
  pages : Measured pageBuckets (log.filterMap Event.pages?) state.compilePages
  bytes : Measured byteBuckets (log.filterMap Event.bytes?) state.pdfBytes

theorem Measured.skip {buckets : List F} {histogram : Histogram F} {valueOf : Event F → Option F}
    (held : Measured buckets (log.filterMap valueOf) histogram) (none_ : valueOf event = none) :
    Measured buckets ((log ++ [event]).filterMap valueOf) histogram := by
  rw [List.filterMap_append, List.filterMap_cons_none none_]
  simpa using held

theorem Measured.snoc {buckets : List F} {histogram : Histogram F} {valueOf : Event F → Option F}
    {value : F} (held : Measured buckets (log.filterMap valueOf) histogram)
    (some_ : valueOf event = some value) :
    Measured buckets ((log ++ [event]).filterMap valueOf) (histogram.observe buckets value) := by
  rw [List.filterMap_append, List.filterMap_cons_some some_]
  exact held.observe value

theorem Tallied.apply {state : State F} (held : Tallied state log) (event : Event F) :
    Tallied (state.apply event) (log ++ [event]) := by
  cases event with
  | started template | left template =>
      exact ⟨held.compiles.other rfl, held.kills.other rfl, held.uploads.other rfl,
        held.refusals.other rfl, held.duration.skip rfl, held.pages.skip rfl, held.bytes.skip rfl⟩
  | uploaded kind =>
      exact ⟨held.compiles.other rfl, held.kills.other rfl, held.uploads.next rfl,
        held.refusals.other rfl, held.duration.skip rfl, held.pages.skip rfl, held.bytes.skip rfl⟩
  | refused reason =>
      exact ⟨held.compiles.other rfl, held.kills.other rfl, held.uploads.other rfl,
        held.refusals.next rfl, held.duration.skip rfl, held.pages.skip rfl, held.bytes.skip rfl⟩
  | recorded template ending =>
      cases ending with
      | dropped =>
          exact ⟨held.compiles.next rfl, held.kills.other rfl, held.uploads.other rfl,
            held.refusals.other rfl, held.duration.skip rfl, held.pages.skip rfl,
            held.bytes.skip rfl⟩
      | finished elapsed result =>
          refine ⟨held.compiles.next rfl, ?_, held.uploads.other rfl, held.refusals.other rfl,
            held.duration.snoc rfl, ?_, ?_⟩
          · show Counts _ _ (match killOf result with
              | some reason => bump state.compileKills reason
              | none => state.compileKills)
            cases killed : killOf result with
            | none => exact held.kills.other killed
            | some reason => exact held.kills.next killed
          · cases result with
            | ok counted => exact held.pages.snoc rfl
            | error failure => exact held.pages.skip rfl
          · cases result with
            | ok counted => exact held.bytes.snoc rfl
            | error failure => exact held.bytes.skip rfl

/-- What is counted without an observation. -/
def Counted : Event F → Prop
  | .uploaded kind => kind = "asset" ∨ kind = "template"
  | .refused reason => ∃ error, reason = metricReason error
  | _ => False

/-- What a step can do. -/
theorem act_cases (acted : act m action = some (m', event)) :
    (∃ t name, m.observations.lookup t = none ∧ event = .started (boundedTemplateLabel name) ∧
      m' = ⟨m.state, wrapAdd m.compilesInFlight 1,
        m.observations.insert t (.observed (boundedTemplateLabel name))⟩) ∨
    (∃ t template ending, m.observations.lookup t = some (.observed template) ∧
      event = .left template ∧ m' = ⟨m.state, wrapAdd m.compilesInFlight (u64Size - 1),
        m.observations.insert t (.left template ending)⟩) ∨
    (∃ t template ending, m.observations.lookup t = some (.left template ending) ∧
      event = .recorded template ending ∧
      m' = ⟨m.state.apply event, m.compilesInFlight, m.observations.erase t⟩) ∨
    Counted event ∧ m' = ⟨m.state.apply event, m.compilesInFlight, m.observations⟩ := by
  cases action with
  | assetUploaded =>
      obtain ⟨rfl, rfl⟩ := Prod.mk.inj (Option.some.inj acted)
      exact .inr (.inr (.inr ⟨.inl rfl, rfl⟩))
  | templateUploaded =>
      obtain ⟨rfl, rfl⟩ := Prod.mk.inj (Option.some.inj acted)
      exact .inr (.inr (.inr ⟨.inr rfl, rfl⟩))
  | refused error =>
      obtain ⟨rfl, rfl⟩ := Prod.mk.inj (Option.some.inj acted)
      exact .inr (.inr (.inr ⟨⟨error, rfl⟩, rfl⟩))
  | startCompile t name =>
      cases found : m.observations.lookup t with
      | some phase => simp [act, found] at acted
      | none =>
          simp only [act, found] at acted
          obtain ⟨rfl, rfl⟩ := Prod.mk.inj (Option.some.inj acted)
          exact .inl ⟨t, name, found, rfl, rfl⟩
  | leave t ending =>
      cases found : m.observations.lookup t with
      | none => simp [act, found] at acted
      | some phase =>
          cases phase with
          | left _ _ => simp [act, found] at acted
          | observed template =>
              simp only [act, found] at acted
              obtain ⟨rfl, rfl⟩ := Prod.mk.inj (Option.some.inj acted)
              exact .inr (.inl ⟨t, template, ending, found, rfl, rfl⟩)
  | record t =>
      cases found : m.observations.lookup t with
      | none => simp [act, found] at acted
      | some phase =>
          cases phase with
          | observed _ => simp [act, found] at acted
          | left template ending =>
              simp only [act, found] at acted
              obtain ⟨rfl, rfl⟩ := Prod.mk.inj (Option.some.inj acted)
              exact .inr (.inr (.inl ⟨t, template, ending, found, rfl, rfl⟩))

theorem act_state (acted : act m action = some (m', event)) : m'.state = m.state.apply event := by
  rcases act_cases acted with ⟨_, _, _, rfl, rfl⟩ | ⟨_, _, _, _, rfl, rfl⟩ | ⟨_, _, _, _, _, rfl⟩ |
    ⟨_, rfl⟩ <;> rfl

theorem Runs.tallied (runs : Runs m log) : Tallied m.state log := by
  induction runs with
  | start =>
      exact ⟨counts_nil, counts_nil, counts_nil, counts_nil, measured_nil _, measured_nil _,
        measured_nil _⟩
  | step past acted ih => exact act_state acted ▸ ih.apply _

/-! ## Where the observations are -/

/-- The observation is on the gauge. -/
def inFlight (_ : T) : Phase F → Nat
  | .observed _ => 1
  | .left _ _ => 0

/-- The observation is of this template and has not recorded. -/
def pending (template : String) (_ : T) (phase : Phase F) : Nat :=
  if phase.template = template then 1 else 0

/-- Each observation that started has recorded or is pending, and those on the gauge are counted. -/
structure Observed (m : Metrics T F) (log : List (Event F)) : Prop where
  gauge : m.compilesInFlight = weight inFlight m.observations % u64Size
  attempts : ∀ template, log.countP (Event.starts template) =
    weight (pending template) m.observations + log.countP (Event.records template)

theorem countP_snoc (p : Event F → Bool) (event : Event F) :
    (log ++ [event]).countP p = log.countP p + if p event then 1 else 0 := by
  rw [List.countP_append, List.countP_singleton]

theorem Observed.act (held : Observed m log) (acted : act m action = some (m', event)) :
    Observed m' (log ++ [event]) := by
  have gauge := held.gauge
  rcases act_cases acted with ⟨t, name, found, rfl, rfl⟩ | ⟨t, template, ending, found, rfl, rfl⟩ |
    ⟨t, template, ending, found, rfl, rfl⟩ | ⟨counted, rfl⟩
  · refine ⟨?_, fun other => ?_⟩
    · show wrapAdd m.compilesInFlight 1 = _
      rw [gauge, weight_insert_new found, wrapAdd, Nat.mod_add_mod]
      exact congrArg (· % u64Size) (Nat.add_comm _ _)
    · rw [countP_snoc, countP_snoc, held.attempts other]
      show _ = weight (pending other) (m.observations.insert t _) + _
      rw [weight_insert_new found]
      by_cases same : boundedTemplateLabel name = other
      · simp [Event.starts, Event.records, pending, Phase.template, same]
        omega
      · simp [Event.starts, Event.records, pending, Phase.template, same]
  · have before := weight_of_lookup inFlight found
    have after := weight_insert inFlight m.observations t (.left template ending)
    refine ⟨?_, fun other => ?_⟩
    · show wrapAdd m.compilesInFlight (u64Size - 1) = weight inFlight (m.observations.insert t _) % _
      simp only [inFlight, u64Size, wrapAdd] at before after gauge ⊢
      omega
    · have before := weight_of_lookup (pending other) found
      have after := weight_insert (pending other) m.observations t (.left template ending)
      rw [countP_snoc, countP_snoc, held.attempts other]
      show _ = weight (pending other) (m.observations.insert t _) + _
      rw [after, before]
      rfl
  · have before := weight_of_lookup inFlight found
    refine ⟨?_, fun other => ?_⟩
    · show m.compilesInFlight = weight inFlight (m.observations.erase t) % _
      rw [gauge, before]
      simp [inFlight]
    · have before := weight_of_lookup (pending other) found
      rw [countP_snoc, countP_snoc, held.attempts other]
      show _ = weight (pending other) (m.observations.erase t) + _
      rw [before]
      by_cases same : template = other
      · simp [Event.starts, Event.records, pending, Phase.template, same]
        omega
      · simp [Event.starts, Event.records, pending, Phase.template, same]
  · refine ⟨gauge, fun other => ?_⟩
    rw [countP_snoc, countP_snoc]
    cases event with
    | uploaded _ | refused _ => exact held.attempts other
    | started _ | left _ | recorded _ _ => exact counted.elim

theorem Runs.observed (runs : Runs m log) : Observed m log := by
  induction runs with
  | start => exact ⟨rfl, fun _ => rfl⟩
  | step past acted ih => exact ih.act acted

/-- **The metrics are the tally of what happened**, whatever order the tasks' steps come in: each
counter is the number of the events under its key, each histogram that of the values observed, the
gauge the number of compiles that have started and not left, and every attempt that started under a
label is on its way or has been recorded under it once. -/
theorem metrics_tally (runs : Runs m log) :
    (∀ template outcome, m.state.compiles.getD (template, outcome) 0 =
      (log.countP fun e => e.compileKey? = some (template, outcome)) % u64Size) ∧
    (∀ reason, m.state.compileKills.getD reason 0 =
      (log.countP fun e => e.killKey? = some reason) % u64Size) ∧
    (∀ kind, m.state.uploads.getD kind 0 =
      (log.countP fun e => e.uploadKey? = some kind) % u64Size) ∧
    (∀ reason, m.state.authFailures.getD reason 0 =
      (log.countP fun e => e.refusalKey? = some reason) % u64Size) ∧
    Measured durationBuckets (log.filterMap Event.elapsed?) m.state.compileDuration ∧
    Measured pageBuckets (log.filterMap Event.pages?) m.state.compilePages ∧
    Measured byteBuckets (log.filterMap Event.bytes?) m.state.pdfBytes ∧
    m.compilesInFlight = weight inFlight m.observations % u64Size ∧
    ∀ template, log.countP (Event.starts template) =
      weight (pending template) m.observations + log.countP (Event.records template) := by
  obtain ⟨compiles, kills, uploads, refusals, duration, pages, bytes⟩ := runs.tallied
  exact ⟨fun template outcome => compiles.value (template, outcome), kills.value, uploads.value,
    refusals.value, duration, pages, bytes, runs.observed.gauge, runs.observed.attempts⟩

/-! ## The labels there can be -/

def templateLabels : List String :=
  ["source", "template_validation", "hanso", "ksc", "lenno", "freudenberg", "ephemeral", "other"]

def outcomes : List String :=
  ["success", "compile_error", "timeout", "overloaded", "worker_error", "invalid", "cancelled"]

def killReasons : List String := ["timeout", "worker_exit"]

def uploadKinds : List String := ["asset", "template"]

def refusalReasons : List String :=
  ["missing", "malformed", "rejected", "unconfigured", "provider_unavailable"]

theorem boundedTemplateLabel_mem (value : String) : boundedTemplateLabel value ∈ templateLabels := by
  unfold boundedTemplateLabel
  split_ifs with known
  · exact List.mem_append_left ["ephemeral", "other"] known
  · decide
  · decide

theorem outcomeOf_mem (result : Summary) : outcomeOf result ∈ outcomes := by
  unfold outcomeOf
  split <;> decide

theorem killOf_mem {result : Summary} {reason : String} (killed : killOf result = some reason) :
    reason ∈ killReasons := by
  unfold killOf at killed
  split at killed
  · obtain rfl := Option.some.inj killed
    decide
  · obtain rfl := Option.some.inj killed
    decide
  · cases killed

theorem metricReason_mem (error : AuthError) : metricReason error ∈ refusalReasons := by
  cases error <;> decide

/-- The event's label values are among the fixed ones. -/
def Fixed : Event F → Prop
  | .started template | .left template | .recorded template _ => template ∈ templateLabels
  | .uploaded kind => kind ∈ uploadKinds
  | .refused reason => reason ∈ refusalReasons

/-- Every label an observation holds and every one that was counted is a fixed one. -/
structure Bounded (m : Metrics T F) (log : List (Event F)) : Prop where
  held : ∀ t phase, m.observations.lookup t = some phase → phase.template ∈ templateLabels
  counted : ∀ e ∈ log, Fixed e

theorem Bounded.act (bounded : Bounded m log) (acted : act m action = some (m', event)) :
    Bounded m' (log ++ [event]) := by
  have more : Fixed event → ∀ e ∈ log ++ [event], Fixed e := by
    intro mine e inside
    rcases List.mem_append.1 inside with old | new
    · exact bounded.counted e old
    · exact List.mem_singleton.1 new ▸ mine
  have inserted : ∀ {t : T} {phase : Phase F}, phase.template ∈ templateLabels → ∀ (s : T) other,
      (m.observations.insert t phase).lookup s = some other → other.template ∈ templateLabels := by
    intro t phase mine s other found
    rw [lookup_insert_eq] at found
    split at found
    · exact Option.some.inj found ▸ mine
    · exact bounded.held s other found
  rcases act_cases acted with ⟨t, name, found, rfl, rfl⟩ | ⟨t, template, ending, found, rfl, rfl⟩ |
    ⟨t, template, ending, found, rfl, rfl⟩ | ⟨counted, rfl⟩
  · exact ⟨inserted (boundedTemplateLabel_mem name), more (boundedTemplateLabel_mem name)⟩
  · have mine : template ∈ templateLabels := bounded.held t _ found
    exact ⟨inserted mine, more mine⟩
  · refine ⟨fun s other there => ?_, more (bounded.held t _ found)⟩
    have there : (m.observations.erase t).lookup s = some other := there
    rw [lookup_erase_eq] at there
    split at there
    · cases there
    · exact bounded.held s other there
  · refine ⟨bounded.held, more ?_⟩
    cases event with
    | uploaded kind =>
        rcases counted with rfl | rfl
        · exact List.mem_cons_self
        · exact List.mem_cons_of_mem _ List.mem_cons_self
    | refused reason =>
        obtain ⟨error, rfl⟩ := counted
        exact metricReason_mem error
    | started _ | left _ | recorded _ _ => exact counted.elim

theorem Runs.bounded (runs : Runs m log) : Bounded m log := by
  induction runs with
  | start => exact ⟨fun t phase found => by simp at found, fun e none_ => absurd none_ List.not_mem_nil⟩
  | step past acted ih => exact ih.act acted

theorem compileKey_fixed {key : String × String} (fixed : Fixed event)
    (mine : event.compileKey? = some key) : key.1 ∈ templateLabels ∧ key.2 ∈ outcomes := by
  cases event with
  | recorded template ending =>
      cases ending with
      | finished elapsed result =>
          obtain rfl := Option.some.inj mine
          exact ⟨fixed, outcomeOf_mem result⟩
      | dropped =>
          obtain rfl := Option.some.inj mine
          exact ⟨fixed, by show "cancelled" ∈ outcomes; decide⟩
  | started _ | left _ | uploaded _ | refused _ => cases mine

/-- The keys of a counter map that are all in `few` are at most as many. -/
theorem size_le_of_keys {K : Type} [Ord K] [Std.TransOrd K] [Std.LawfulEqOrd K]
    {counts : BTreeMap K Nat} {few : List K} (inside : ∀ key ∈ counts, key ∈ few) :
    counts.size ≤ few.length := by
  rw [← Std.ExtTreeMap.length_keys]
  refine List.Subperm.length_le (List.subperm_of_subset ?_ ?_)
  · refine counts.ordered_keys.imp ?_
    rintro a b less rfl
    simp at less
  · intro key listed
    exact inside key (Std.ExtTreeMap.mem_keys.1 listed)

/-- Every key a counter has is made of fixed labels. -/
structure Labelled (state : State F) : Prop where
  compiles : ∀ key ∈ state.compiles, key.1 ∈ templateLabels ∧ key.2 ∈ outcomes
  kills : ∀ reason ∈ state.compileKills, reason ∈ killReasons
  uploads : ∀ kind ∈ state.uploads, kind ∈ uploadKinds
  refusals : ∀ reason ∈ state.authFailures, reason ∈ refusalReasons

theorem Runs.labelled (runs : Runs m log) : Labelled m.state := by
  have tallied := runs.tallied
  have fixed := runs.bounded.counted
  refine ⟨fun key there => ?_, fun reason there => ?_, fun kind there => ?_, fun reason there => ?_⟩
  · obtain ⟨e, inside, mine⟩ := (tallied.compiles.occurs key).1 there
    exact compileKey_fixed (fixed e inside) mine
  · obtain ⟨e, inside, mine⟩ := (tallied.kills.occurs reason).1 there
    cases e with
    | recorded template ending =>
        cases ending with
        | finished elapsed result => exact killOf_mem mine
        | dropped => cases mine
    | started _ | left _ | uploaded _ | refused _ => cases mine
  · obtain ⟨e, inside, mine⟩ := (tallied.uploads.occurs kind).1 there
    cases e with
    | uploaded kind' => exact Option.some.inj mine ▸ fixed _ inside
    | started _ | left _ | recorded _ _ | refused _ => cases mine
  · obtain ⟨e, inside, mine⟩ := (tallied.refusals.occurs reason).1 there
    cases e with
    | refused reason' => exact Option.some.inj mine ▸ fixed _ inside
    | started _ | left _ | recorded _ _ | uploaded _ => cases mine

/-- **The series are few.**  Whatever names callers give and whatever becomes of their compiles,
every label value counted is one of a fixed list, so there are at most 56 compile counters, two of
kills, two of uploads and five of refusals. -/
theorem series_bounded (runs : Runs m log) :
    (∀ key ∈ m.state.compiles, key.1 ∈ templateLabels ∧ key.2 ∈ outcomes) ∧
    (∀ reason ∈ m.state.compileKills, reason ∈ killReasons) ∧
    (∀ kind ∈ m.state.uploads, kind ∈ uploadKinds) ∧
    (∀ reason ∈ m.state.authFailures, reason ∈ refusalReasons) ∧
    m.state.compiles.size ≤ 56 ∧ m.state.compileKills.size ≤ 2 ∧ m.state.uploads.size ≤ 2 ∧
    m.state.authFailures.size ≤ 5 := by
  obtain ⟨compiles, kills, uploads, refusals⟩ := runs.labelled
  refine ⟨compiles, kills, uploads, refusals, ?_, size_le_of_keys kills, size_le_of_keys uploads,
    size_le_of_keys refusals⟩
  exact @size_le_of_keys _ _ _ _ _ (templateLabels.product outcomes) fun key there =>
    List.mem_product.2 (compiles key there)

end Runs

section Sample

/-- The text of a number of thousandths. -/
def shownThousandths (n : Nat) : List Char :=
  let digits := Nat.toDigits 10 (1000 + n % 1000)
  let fraction := (digits.tail.reverse.dropWhile (· = '0')).reverse
  Nat.toDigits 10 (n / 1000) ++ if fraction = [] then [] else '.' :: fraction

theorem shownThousandths_numeral (n : Nat) : ∀ c ∈ shownThousandths n, isNumeral c = true := by
  have digit : ∀ {m : Nat} {c : Char}, c ∈ Nat.toDigits 10 m → isNumeral c = true := by
    intro m c inside
    have := Nat.isDigit_of_mem_toDigits (by decide) (by decide) inside
    simp [isNumeral, Char.isAlphanum, this]
  intro c inside
  unfold shownThousandths at inside
  rcases List.mem_append.1 inside with whole | fraction
  · exact digit whole
  · split at fraction
    · cases fraction
    · rcases List.mem_cons.1 fraction with rfl | fraction
      · decide
      · exact digit (List.mem_of_mem_tail (List.mem_reverse.1
          ((List.dropWhile_sublist _).subset (List.mem_reverse.1 fraction))))

/-- Times, pages and sizes to the thousandth. -/
instance : F64 Nat where
  add a b := a + b
  le a b := a ≤ b
  ofUsize n := n * 1000
  decimal digits places := digits * 1000 / 10 ^ places
  shown n := String.ofList (shownThousandths n)
  shown_numeral n := by
    rw [String.toList_ofList]
    exact shownThousandths_numeral n

/-- The steps taken one after another, and what they were about. -/
def acts : Metrics Nat Nat → List (Action Nat Nat) → Option (Metrics Nat Nat × List (Event Nat))
  | m, [] => some (m, [])
  | m, action :: rest =>
      match act m action with
      | none => none
      | some (m', event) => (acts m' rest).map fun (last, log) => (last, event :: log)

theorem runs_acts {m last : Metrics Nat Nat} {past log : List (Event Nat)}
    {actions : List (Action Nat Nat)} (runs : Runs m past) (acted : acts m actions = some (last, log)) :
    Runs last (past ++ log) := by
  induction actions generalizing m past log with
  | nil =>
      obtain ⟨rfl, rfl⟩ := Prod.mk.inj (Option.some.inj acted)
      exact (List.append_nil past).symm ▸ runs
  | cons action rest ih =>
      unfold acts at acted
      split at acted
      · cases acted
      · rename_i m' event stepped
        obtain ⟨⟨last', log'⟩, more, same⟩ := Option.map_eq_some_iff.1 acted
        obtain ⟨rfl, rfl⟩ := Prod.mk.inj same
        have := ih (runs.step stepped) more
        rwa [List.append_assoc] at this

/-- Four compiles overlap: one ends in a document, one's caller hangs up, one of an unheard-of name
times out, and one is still at work. -/
def overlapping : List (Action Nat Nat) :=
  [.startCompile 0 "hanso", .startCompile 1 "tpl_01ARZ3NDEKTSV4RRFFQ69G5FAV", .assetUploaded,
    .startCompile 2 "invoice", .leave 0 (.finished 250 (.ok (3, 42000))), .refused .rejected,
    .leave 1 .dropped, .startCompile 3 "ksc", .record 1,
    .leave 2 (.finished 30000 (.error (.spawn (.timeout 30)))), .record 0, .refused .missing, .record 2]

/-- Each compile that is over is counted once, under its own outcome and a name from the list; the
one at work is on the gauge; and the histograms are those of the times and of the one document. -/
theorem metrics_tally_overlapping : ∃ m log, Runs (T := Nat) (F := Nat) m log ∧
    m.state.compiles.getD ("hanso", "success") 0 = 1 ∧
    m.state.compiles.getD ("ephemeral", "cancelled") 0 = 1 ∧
    m.state.compiles.getD ("other", "timeout") 0 = 1 ∧
    m.state.compiles.getD ("ksc", "success") 0 = 0 ∧
    m.state.compileKills.getD "timeout" 0 = 1 ∧ m.state.uploads.getD "asset" 0 = 1 ∧
    m.state.authFailures.getD "rejected" 0 = 1 ∧ m.compilesInFlight = 1 ∧
    Measured durationBuckets [250, 30000] m.state.compileDuration ∧
    Measured pageBuckets [3000] m.state.compilePages ∧
    Measured byteBuckets [42000000] m.state.pdfBytes := by
  obtain ⟨⟨m, log⟩, acted, checked⟩ : ∃ x, acts {} overlapping = some x ∧ decide
      (x.2.countP (fun e => e.compileKey? = some ("hanso", "success")) = 1 ∧
        x.2.countP (fun e => e.compileKey? = some ("ephemeral", "cancelled")) = 1 ∧
        x.2.countP (fun e => e.compileKey? = some ("other", "timeout")) = 1 ∧
        x.2.countP (fun e => e.compileKey? = some ("ksc", "success")) = 0 ∧
        x.2.countP (fun e => e.killKey? = some "timeout") = 1 ∧
        x.2.countP (fun e => e.uploadKey? = some "asset") = 1 ∧
        x.2.countP (fun e => e.refusalKey? = some "rejected") = 1 ∧
        weight inFlight x.1.observations = 1 ∧ x.2.filterMap Event.elapsed? = [250, 30000] ∧
        x.2.filterMap Event.pages? = [3000] ∧ x.2.filterMap Event.bytes? = [42000000]) = true :=
    (Option.any_eq_true _ _).1 (by decide +kernel)
  obtain ⟨document, hung, lost, none_, killed, asset, rejected, working, times, pages, bytes⟩ :=
    of_decide_eq_true checked
  have runs : Runs m log := runs_acts .start acted
  obtain ⟨compiles, kills, uploads, refusals, duration, paged, sized, gauge, -⟩ := metrics_tally runs
  refine ⟨m, log, runs, ?_, ?_, ?_, ?_, ?_, ?_, ?_, ?_, times ▸ duration, pages ▸ paged,
    bytes ▸ sized⟩
  · rw [compiles, document]; rfl
  · rw [compiles, hung]; rfl
  · rw [compiles, lost]; rfl
  · rw [compiles, none_]; rfl
  · rw [kills, killed]; rfl
  · rw [uploads, asset]; rfl
  · rw [refusals, rejected]; rfl
  · rw [gauge, working]; rfl

/-- The unheard-of name is counted, and under no name of its own. -/
theorem series_bounded_overlapping : ∃ m log, Runs (T := Nat) (F := Nat) m log ∧
    ("other", "timeout") ∈ m.state.compiles ∧ (∀ outcome, ("invoice", outcome) ∉ m.state.compiles) ∧
    (∀ reason ∈ m.state.compileKills, reason ∈ killReasons) ∧
    (∀ kind ∈ m.state.uploads, kind ∈ uploadKinds) ∧
    (∀ reason ∈ m.state.authFailures, reason ∈ refusalReasons) ∧
    m.state.compiles.size ≤ 56 ∧ m.state.compileKills.size ≤ 2 ∧ m.state.uploads.size ≤ 2 ∧
    m.state.authFailures.size ≤ 5 := by
  obtain ⟨⟨m, log⟩, acted, checked⟩ : ∃ x, acts {} overlapping = some x ∧
      x.2.any (fun e => e.compileKey? = some ("other", "timeout")) = true :=
    (Option.any_eq_true _ _).1 (by decide +kernel)
  obtain ⟨e, inside, mine⟩ := List.any_eq_true.1 checked
  have runs : Runs m log := runs_acts .start acted
  obtain ⟨labels, bounded⟩ := series_bounded runs
  refine ⟨m, log, runs, ?_, fun outcome there => ?_, bounded⟩
  · exact (runs.tallied.compiles.occurs _).2 ⟨e, inside, of_decide_eq_true mine⟩
  · have listed : "invoice" ∈ templateLabels := (labels _ there).1
    exact absurd listed (by decide)

end Sample

end TypstMcp.Metrics
