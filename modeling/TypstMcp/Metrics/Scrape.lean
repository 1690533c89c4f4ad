/-
Metrics.Scrape -- the text a scraper reads

`render` writes the metrics and what the store says of itself as one text.  Names and
label values are none of a caller's, and the one that is derived from a caller's is
escaped besides, so the text is read back as the samples it was written from.

* `escapeLabel_eq`: replacing one character after another is escaping each.
* `scrape_reads_back`: what is read is the tally of what happened.
* `tenants_add_up`: the tenants' bytes add up to the store's.
-/
import TypstMcp.Metrics.Tally
import TypstMcp.Store.History
import TypstMcp.Theory.Exposition

namespace TypstMcp.Metrics

open TypstMcp.Theory TypstMcp.Theory.Table TypstMcp.Theory.Exposition
open TypstMcp.Auth (TenantId)
open TypstMcp.Bundle (BTreeMap)
open TypstMcp.Store (World u64Size)

set_option autoImplicit false
set_option linter.unusedSectionVars false
set_option linter.dupNamespace false

/-! ## The text -/

/-- `str::replace` of one character. -/
def replaceChar (old : Char) (new : List Char) (text : List Char) : List Char :=
  text.flatMap fun c => if c = old then new else [c]

def escapeLabel (value : String) : String :=
  String.ofList (replaceChar '\n' ['\\', 'n'] (replaceChar '"' ['\\', '"']
    (replaceChar '\\' ['\\', '\\'] value.toList)))

/-- What the store says of itself: the tenants in the order its map iterates. -/
structure StoreView where
  tenantUsage : List (TenantId × Nat)
  usedBytes : Nat
  expired : Nat
  quota : Nat

def storeView {T : Type} (rank : TenantId → Nat) (w : World T) : StoreView where
  tenantUsage := iterate rank w.index.perTenant
  usedBytes := w.index.total
  expired := w.expiredEvictions
  quota := w.quotaEvictions

section Text

variable {T F : Type} [F64 F]

/-- A line with one label. -/
def labelled (name key value number : String) : String :=
  name ++ "\x7b" ++ key ++ "=\"" ++ value ++ "\"\x7d " ++ number

/-- The two lines about a metric. -/
def about (name help kind : String) : List String :=
  ["# HELP " ++ name ++ " " ++ help, "# TYPE " ++ name ++ " " ++ kind]

/-- `write_histogram`. -/
def histogramLines (name help : String) (histogram : Histogram F) (buckets : List F) : List String :=
  about name help "histogram" ++
  buckets.zipIdx.map (fun (upper, index) => labelled (name ++ "_bucket") "le" (F64.shown upper)
    (toString (histogram.bucketCounts.getD index 0))) ++
  [labelled (name ++ "_bucket") "le" "+Inf" (toString histogram.count),
    name ++ "_sum" ++ " " ++ F64.shown histogram.sum,
    name ++ "_count" ++ " " ++ toString histogram.count]

/-- The lines of `render`, in order. -/
def renderLines (m : Metrics T F) (store : StoreView) : List String :=
  about "typst_mcp_compiles_total" "Compile attempts by outcome and bounded template label."
    "counter" ++
  m.state.compiles.toList.map (fun ((template, outcome), value) =>
    "typst_mcp_compiles_total\x7boutcome=\"" ++ outcome ++ "\",template=\"" ++
      escapeLabel template ++ "\"\x7d " ++ toString value) ++
  histogramLines "typst_mcp_compile_duration_seconds" "Compile wall time in seconds."
    m.state.compileDuration durationBuckets ++
  histogramLines "typst_mcp_compile_pages" "Pages produced by successful compiles."
    m.state.compilePages pageBuckets ++
  histogramLines "typst_mcp_pdf_bytes" "PDF bytes produced by successful compiles."
    m.state.pdfBytes byteBuckets ++
  about "typst_mcp_compile_kills_total" "Compile workers killed or lost." "counter" ++
  m.state.compileKills.toList.map (fun (reason, value) =>
    labelled "typst_mcp_compile_kills_total" "reason" reason (toString value)) ++
  about "typst_mcp_compiles_in_flight" "Compile slots currently occupied." "gauge" ++
  ["typst_mcp_compiles_in_flight" ++ " " ++ toString m.compilesInFlight] ++
  about "typst_mcp_store_bytes" "Bytes held per opaque tenant partition." "gauge" ++
  store.tenantUsage.map (fun (tenant, bytes) =>
    labelled "typst_mcp_store_bytes" "tenant_fp" tenant.str (toString bytes)) ++
  about "typst_mcp_store_bytes_total" "Total bytes held in the store." "gauge" ++
  ["typst_mcp_store_bytes_total" ++ " " ++ toString store.usedBytes] ++
  about "typst_mcp_store_evictions_total" "Entries evicted by reason." "counter" ++
  [labelled "typst_mcp_store_evictions_total" "reason" "expired" (toString store.expired),
    labelled "typst_mcp_store_evictions_total" "reason" "quota" (toString store.quota)] ++
  about "typst_mcp_uploads_total" "Successful tenant uploads." "counter" ++
  m.state.uploads.toList.map (fun (kind, value) =>
    labelled "typst_mcp_uploads_total" "kind" kind (toString value)) ++
  about "typst_mcp_auth_failures_total" "Authentication failures by public reason." "counter" ++
  m.state.authFailures.toList.map (fun (reason, value) =>
    labelled "typst_mcp_auth_failures_total" "reason" reason (toString value))

def render (m : Metrics T F) (store : StoreView) : String :=
  String.ofList ((renderLines m store).flatMap fun line => line.toList ++ ['\n'])

end Text

/-! ## Escaping -/

theorem escapeLabel_eq (value : String) :
    (escapeLabel value).toList = value.toList.flatMap escapeChar := by
  unfold escapeLabel replaceChar
  rw [String.toList_ofList, List.flatMap_assoc, List.flatMap_assoc]
  refine congrArg (fun f => value.toList.flatMap f) (funext fun c => ?_)
  by_cases back : c = '\\'
  · subst back
    decide
  by_cases quote : c = '"'
  · subst quote
    decide
  by_cases feed : c = '\n'
  · subst feed
    decide
  have plain : escapeChar c = [c] := by
    unfold escapeChar
    split <;> simp_all
  simp [back, quote, feed, plain]

/-! ## The samples -/

section Samples

variable {T F : Type} [DecidableEq T] [F64 F]

def sample (name : String) (labels : List (String × String)) (value : String) : Sample :=
  ⟨name.toList, labels.map fun label => (label.1.toList, label.2.toList), value.toList⟩

def compileSamples (m : Metrics T F) : List Sample :=
  m.state.compiles.toList.map fun ((template, outcome), value) =>
    sample "typst_mcp_compiles_total" [("outcome", outcome), ("template", template)] (toString value)

def histogramSamples (name : String) (histogram : Histogram F) (buckets : List F) : List Sample :=
  buckets.zipIdx.map (fun (upper, index) => sample (name ++ "_bucket") [("le", F64.shown upper)]
    (toString (histogram.bucketCounts.getD index 0))) ++
  [sample (name ++ "_bucket") [("le", "+Inf")] (toString histogram.count),
    sample (name ++ "_sum") [] (F64.shown histogram.sum),
    sample (name ++ "_count") [] (toString histogram.count)]

/-- The samples but for the compile counters. -/
def otherSamples (m : Metrics T F) (store : StoreView) : List Sample :=
  histogramSamples "typst_mcp_compile_duration_seconds" m.state.compileDuration durationBuckets ++
  histogramSamples "typst_mcp_compile_pages" m.state.compilePages pageBuckets ++
  histogramSamples "typst_mcp_pdf_bytes" m.state.pdfBytes byteBuckets ++
  m.state.compileKills.toList.map (fun (reason, value) =>
    sample "typst_mcp_compile_kills_total" [("reason", reason)] (toString value)) ++
  [sample "typst_mcp_compiles_in_flight" [] (toString m.compilesInFlight)] ++
  store.tenantUsage.map (fun (tenant, bytes) =>
    sample "typst_mcp_store_bytes" [("tenant_fp", tenant.str)] (toString bytes)) ++
  [sample "typst_mcp_store_bytes_total" [] (toString store.usedBytes)] ++
  [sample "typst_mcp_store_evictions_total" [("reason", "expired")] (toString store.expired),
    sample "typst_mcp_store_evictions_total" [("reason", "quota")] (toString store.quota)] ++
  m.state.uploads.toList.map (fun (kind, value) =>
    sample "typst_mcp_uploads_total" [("kind", kind)] (toString value)) ++
  m.state.authFailures.toList.map (fun (reason, value) =>
    sample "typst_mcp_auth_failures_total" [("reason", reason)] (toString value))

def samples (m : Metrics T F) (store : StoreView) : List Sample :=
  compileSamples m ++ otherSamples m store

/-! ## Line by line -/

/-- A character that stands for itself between quotes. -/
def Inert (c : Char) : Prop := c ≠ '\\' ∧ c ≠ '"' ∧ c ≠ '\n'

instance (c : Char) : Decidable (Inert c) :=
  inferInstanceAs (Decidable (c ≠ '\\' ∧ c ≠ '"' ∧ c ≠ '\n'))

def InertText (text : String) : Prop := ∀ c ∈ text.toList, Inert c

instance (text : String) : Decidable (InertText text) := List.decidableBAll Inert text.toList

theorem inert_numeral {c : Char} (numeral : isNumeral c = true) : Inert c := by
  refine ⟨?_, ?_, ?_⟩ <;>
  · rintro rfl
    exact absurd numeral (by decide)

theorem inert_toString (n : Nat) : InertText (toString n) := by
  intro c inside
  have := Ascii.isDigit_of_mem_toString inside
  exact inert_numeral (by simp [isNumeral, Char.isAlphanum, this])

theorem inert_shown (x : F) : InertText (F64.shown x) := fun c inside =>
  inert_numeral (F64.shown_numeral x c inside)

theorem InertText.no_feed {text : String} (inert : InertText text) : '\n' ∉ text.toList :=
  fun inside => (inert _ inside).2.2 rfl

theorem flatMap_inert {text : String} (inert : InertText text) :
    text.toList.flatMap escapeChar = text.toList := by
  have each : ∀ c ∈ text.toList, escapeChar c = [c] := by
    intro c inside
    obtain ⟨back, quote, feed⟩ := inert c inside
    unfold escapeChar
    split <;> simp_all
  rw [List.flatMap_congr each]
  simp

/-- The text of a metric's name. -/
def NameText (name : String) : Prop := name.toList ≠ [] ∧ ∀ c ∈ name.toList, isNameChar c = true

instance (name : String) : Decidable (NameText name) :=
  haveI := List.decidableBAll (isNameChar · = true) name.toList
  inferInstanceAs (Decidable (name.toList ≠ [] ∧ ∀ c ∈ name.toList, isNameChar c = true))

theorem NameText.append {name more : String} (named : NameText name) (rest : NameText more) :
    NameText (name ++ more) := by
  refine ⟨by simp [String.toList_append, named.1], fun c inside => ?_⟩
  rw [String.toList_append] at inside
  exact (List.mem_append.1 inside).elim (named.2 c) (rest.2 c)

/-- These written lines say these samples, and comments besides. -/
structure Says (lines : List String) (said : List Sample) : Prop where
  exists_lines : ∃ spelled : List Line, lines.map String.toList = spelled.map Line.write ∧
    (∀ line ∈ spelled, LineSound line) ∧ spelled.filterMap Line.sample? = said

theorem Says.append {a b : List String} {s t : List Sample} (first : Says a s) (second : Says b t) :
    Says (a ++ b) (s ++ t) := by
  obtain ⟨la, sameA, soundA, saidA⟩ := first
  obtain ⟨lb, sameB, soundB, saidB⟩ := second
  refine ⟨la ++ lb, ?_, List.forall_mem_append.2 ⟨soundA, soundB⟩, ?_⟩
  · rw [List.map_append, List.map_append, sameA, sameB]
  · rw [List.filterMap_append, saidA, saidB]

theorem says_nil : Says [] [] := ⟨[], rfl, fun _ none_ => absurd none_ List.not_mem_nil, rfl⟩

theorem says_one {line : String} {s : Sample} (spelled : line.toList = s.write)
    (sound : SampleSound s) : Says [line] [s] :=
  ⟨[.sample s], by simp [spelled, Line.write],
    fun l inside => List.mem_singleton.1 inside ▸ sound, rfl⟩

theorem says_map {A : Type} {l : List A} {text : A → String} {of : A → Sample}
    (each : ∀ a ∈ l, Says [text a] [of a]) : Says (l.map text) (l.map of) := by
  induction l with
  | nil => exact says_nil
  | cons a rest ih =>
      obtain ⟨here, later⟩ := List.forall_mem_cons.1 each
      exact here.append (ih later)

theorem says_about {name help kind : String} (plain : InertText name) (clear : InertText help)
    (known : InertText kind) : Says (about name help kind) [] := by
  refine ⟨[.comment (" HELP " ++ name ++ " " ++ help).toList,
    .comment (" TYPE " ++ name ++ " " ++ kind).toList], ?_, ?_, rfl⟩
  · simp [about, Line.write, String.toList_append]
  · intro line inside
    have free := plain.no_feed
    have free' := clear.no_feed
    have free'' := known.no_feed
    rcases List.mem_cons.1 inside with rfl | inside
    · simp [LineSound, String.toList_append, free, free']
    · obtain rfl := List.mem_singleton.1 inside
      simp [LineSound, String.toList_append, free, free'']

theorem says_plain {name value : String} (named : NameText name) (inert : InertText value) :
    Says [name ++ " " ++ value] [sample name [] value] := by
  refine says_one (by simp [sample, Sample.write, String.toList_append]) ⟨named.2, named.1, ?_,
    inert.no_feed⟩
  exact fun label none_ => absurd none_ List.not_mem_nil

theorem says_labelled {name key value number : String} (named : NameText name)
    (keyed : '=' ∉ key.toList ∧ '\n' ∉ key.toList) (inert : InertText value)
    (numeral : InertText number) :
    Says [labelled name key value number] [sample name [(key, value)] number] := by
  refine says_one ?_ ⟨named.2, named.1, fun label inside => ?_, numeral.no_feed⟩
  · simp [labelled, sample, Sample.write, writeLabels, writeLabel, String.toList_append,
      flatMap_inert inert]
  · obtain rfl := List.mem_singleton.1 inside
    exact keyed

theorem says_compile {template outcome number : String} (inert : InertText outcome)
    (numeral : InertText number) :
    Says ["typst_mcp_compiles_total\x7boutcome=\"" ++ outcome ++ "\",template=\"" ++
        escapeLabel template ++ "\"\x7d " ++ number]
      [sample "typst_mcp_compiles_total" [("outcome", outcome), ("template", template)] number] := by
  have named : NameText "typst_mcp_compiles_total" := by decide
  refine says_one ?_ ⟨named.2, named.1, fun label inside => ?_, numeral.no_feed⟩
  · simp [sample, Sample.write, writeLabels, writeLabel, String.toList_append,
      flatMap_inert inert, escapeLabel_eq]
  · simp only [sample, List.map_cons, List.map_nil, List.mem_cons, List.not_mem_nil, or_false] at inside
    rcases inside with rfl | rfl
    · exact (by decide : '=' ∉ "outcome".toList ∧ '\n' ∉ "outcome".toList)
    · exact (by decide : '=' ∉ "template".toList ∧ '\n' ∉ "template".toList)

theorem says_histogram {name help : String} (histogram : Histogram F) (buckets : List F)
    (named : NameText name) (plain : InertText name) (clear : InertText help) :
    Says (histogramLines name help histogram buckets) (histogramSamples name histogram buckets) := by
  have bucket : NameText (name ++ "_bucket") := named.append (by decide)
  have sum : NameText (name ++ "_sum") := named.append (by decide)
  have count : NameText (name ++ "_count") := named.append (by decide)
  have le : '=' ∉ "le".toList ∧ '\n' ∉ "le".toList := by decide
  have each : ∀ x ∈ buckets.zipIdx,
      Says [labelled (name ++ "_bucket") "le" (F64.shown x.1)
          (toString (histogram.bucketCounts.getD x.2 0))]
        [sample (name ++ "_bucket") [("le", F64.shown x.1)]
          (toString (histogram.bucketCounts.getD x.2 0))] := fun x _ =>
    says_labelled bucket le (inert_shown x.1) (inert_toString _)
  have last : Says [labelled (name ++ "_bucket") "le" "+Inf" (toString histogram.count)]
      [sample (name ++ "_bucket") [("le", "+Inf")] (toString histogram.count)] :=
    says_labelled bucket le (by decide) (inert_toString _)
  have totals := last.append ((says_plain sum (inert_shown histogram.sum)).append
    (says_plain count (inert_toString histogram.count)))
  exact ((says_about plain clear (by decide)).append (says_map each)).append totals

theorem Says.reads {lines : List String} {said : List Sample} (spoken : Says lines said) :
    read (lines.flatMap fun line => line.toList ++ ['\n']) = some said := by
  obtain ⟨spelled, same, sound, saidIt⟩ := spoken
  have whole : (lines.flatMap fun line => line.toList ++ ['\n']) = write spelled := by
    have paired := congrArg (List.flatMap (· ++ ['\n'])) same
    rwa [List.flatMap_map, List.flatMap_map] at paired
  rw [whole, read_write sound, saidIt]

/-! ## The whole text -/

variable {m : Metrics T F} {log : List (Event F)}

theorem mem_of_toList {K : Type} [Ord K] [Std.TransOrd K] [Std.LawfulEqOrd K]
    {counts : BTreeMap K Nat} {entry : K × Nat} (listed : entry ∈ counts.toList) :
    entry.1 ∈ counts := by
  rw [Std.ExtTreeMap.mem_iff_isSome_getElem?,
    Std.ExtTreeMap.mem_toList_iff_getElem?_eq_some.1 (show (entry.1, entry.2) ∈ _ from listed)]
  rfl

theorem inert_tenant (tenant : TenantId) : InertText tenant.str := by
  intro c inside
  have shape := tenant.shape
  simp only [TypstMcp.Auth.tenantShape, Bool.and_eq_true, List.all_eq_true] at shape
  have known := List.contains_iff_mem.1 (shape.2 c inside)
  exact (List.all_iff_forall_prop.1 (by decide) : ∀ c ∈ TypstMcp.Auth.alphabet, Inert c) c known

theorem says_render (runs : Runs m log) (store : StoreView) :
    Says (renderLines m store) (samples m store) := by
  obtain ⟨compiles, kills, uploads, refusals⟩ := runs.labelled
  have outcomeText : ∀ x ∈ outcomes, InertText x := by decide
  have killText : ∀ x ∈ killReasons, InertText x := by decide
  have uploadText : ∀ x ∈ uploadKinds, InertText x := by decide
  have refusalText : ∀ x ∈ refusalReasons, InertText x := by decide
  have compiled := (says_about (show InertText "typst_mcp_compiles_total" by decide)
    (show InertText "Compile attempts by outcome and bounded template label." by decide)
    (show InertText "counter" by decide)).append
    (says_map fun (entry : (String × String) × Nat) (listed : entry ∈ m.state.compiles.toList) =>
      @says_compile entry.1.1 entry.1.2 (toString entry.2)
        (outcomeText _ (compiles _ (mem_of_toList listed)).2) (inert_toString _))
  have duration := says_histogram m.state.compileDuration durationBuckets
    (show NameText "typst_mcp_compile_duration_seconds" by decide) (by decide)
    (show InertText "Compile wall time in seconds." by decide)
  have pages := says_histogram m.state.compilePages pageBuckets
    (show NameText "typst_mcp_compile_pages" by decide) (by decide)
    (show InertText "Pages produced by successful compiles." by decide)
  have bytes := says_histogram m.state.pdfBytes byteBuckets
    (show NameText "typst_mcp_pdf_bytes" by decide) (by decide)
    (show InertText "PDF bytes produced by successful compiles." by decide)
  have killed := (says_about (show InertText "typst_mcp_compile_kills_total" by decide)
    (show InertText "Compile workers killed or lost." by decide)
    (show InertText "counter" by decide)).append
    (says_map fun (entry : String × Nat) (listed : entry ∈ m.state.compileKills.toList) =>
      says_labelled (show NameText "typst_mcp_compile_kills_total" by decide)
        (show '=' ∉ "reason".toList ∧ '\n' ∉ "reason".toList by decide)
        (killText _ (kills _ (mem_of_toList listed))) (inert_toString entry.2))
  have flying := (says_about (show InertText "typst_mcp_compiles_in_flight" by decide)
    (show InertText "Compile slots currently occupied." by decide)
    (show InertText "gauge" by decide)).append
    (says_plain (show NameText "typst_mcp_compiles_in_flight" by decide)
      (inert_toString m.compilesInFlight))
  have tenants := (says_about (show InertText "typst_mcp_store_bytes" by decide)
    (show InertText "Bytes held per opaque tenant partition." by decide)
    (show InertText "gauge" by decide)).append
    (says_map fun (entry : TenantId × Nat) (_ : entry ∈ store.tenantUsage) =>
      says_labelled (show NameText "typst_mcp_store_bytes" by decide)
        (show '=' ∉ "tenant_fp".toList ∧ '\n' ∉ "tenant_fp".toList by decide)
        (inert_tenant entry.1) (inert_toString entry.2))
  have total := (says_about (show InertText "typst_mcp_store_bytes_total" by decide)
    (show InertText "Total bytes held in the store." by decide)
    (show InertText "gauge" by decide)).append
    (says_plain (show NameText "typst_mcp_store_bytes_total" by decide)
      (inert_toString store.usedBytes))
  have evicted := (says_about (show InertText "typst_mcp_store_evictions_total" by decide)
    (show InertText "Entries evicted by reason." by decide)
    (show InertText "counter" by decide)).append
    ((says_labelled (show NameText "typst_mcp_store_evictions_total" by decide)
      (show '=' ∉ "reason".toList ∧ '\n' ∉ "reason".toList by decide)
      (show InertText "expired" by decide) (inert_toString store.expired)).append
    (says_labelled (show NameText "typst_mcp_store_evictions_total" by decide)
      (show '=' ∉ "reason".toList ∧ '\n' ∉ "reason".toList by decide)
      (show InertText "quota" by decide) (inert_toString store.quota)))
  have uploaded := (says_about (show InertText "typst_mcp_uploads_total" by decide)
    (show InertText "Successful tenant uploads." by decide)
    (show InertText "counter" by decide)).append
    (says_map fun (entry : String × Nat) (listed : entry ∈ m.state.uploads.toList) =>
      says_labelled (show NameText "typst_mcp_uploads_total" by decide)
        (show '=' ∉ "kind".toList ∧ '\n' ∉ "kind".toList by decide)
        (uploadText _ (uploads _ (mem_of_toList listed))) (inert_toString entry.2))
  have refused := (says_about (show InertText "typst_mcp_auth_failures_total" by decide)
    (show InertText "Authentication failures by public reason." by decide)
    (show InertText "counter" by decide)).append
    (says_map fun (entry : String × Nat) (listed : entry ∈ m.state.authFailures.toList) =>
      says_labelled (show NameText "typst_mcp_auth_failures_total" by decide)
        (show '=' ∉ "reason".toList ∧ '\n' ∉ "reason".toList by decide)
        (refusalText _ (refusals _ (mem_of_toList listed))) (inert_toString entry.2))
  have whole := compiled.append (duration.append (pages.append (bytes.append (killed.append
    (flying.append (tenants.append (total.append (evicted.append (uploaded.append refused)))))))))
  unfold renderLines samples compileSamples otherSamples
  simp only [List.append_assoc, List.nil_append, List.cons_append] at whole ⊢
  exact whole

theorem sample_inj {name name' value value' : String} {labels labels' : List (String × String)}
    (same : sample name labels value = sample name' labels' value') :
    name = name' ∧ labels = labels' ∧ value = value' := by
  obtain ⟨names, pairs, values⟩ := Sample.mk.inj same
  refine ⟨String.toList_inj.1 names, ?_, String.toList_inj.1 values⟩
  refine List.map_injective_iff.2 ?_ pairs
  rintro ⟨a, b⟩ ⟨a', b'⟩ same
  obtain ⟨first, second⟩ := Prod.mk.inj same
  exact Prod.ext (String.toList_inj.1 first) (String.toList_inj.1 second)

/-- The sample counts something other than compiles by outcome. -/
def Other (s : Sample) : Prop := s.name ≠ "typst_mcp_compiles_total".toList

theorem other_histogram {name : String} {histogram : Histogram F} {buckets : List F}
    (apart : ∀ suffix ∈ ["_bucket", "_sum", "_count"],
      (name ++ suffix).toList ≠ "typst_mcp_compiles_total".toList) :
    ∀ s ∈ histogramSamples name histogram buckets, Other s := by
  intro s inside
  rcases List.mem_append.1 inside with bucket | total
  · obtain ⟨x, -, rfl⟩ := List.mem_map.1 bucket
    exact apart "_bucket" (by simp)
  · simp only [List.mem_cons, List.not_mem_nil, or_false] at total
    rcases total with rfl | rfl | rfl
    · exact apart "_bucket" (by simp)
    · exact apart "_sum" (by simp)
    · exact apart "_count" (by simp)

theorem other_map {A : Type} {l : List A} {of : A → Sample} (each : ∀ a, Other (of a)) :
    ∀ s ∈ l.map of, Other s := by
  intro s inside
  obtain ⟨a, -, rfl⟩ := List.mem_map.1 inside
  exact each a

theorem otherSamples_other (store : StoreView) : ∀ s ∈ otherSamples m store, Other s := by
  have known : ∀ {name : String} {labels : List (String × String)} {value : String},
      name ≠ "typst_mcp_compiles_total" → Other (sample name labels value) := fun differs same =>
    differs (String.toList_inj.1 same)
  unfold otherSamples
  simp only [List.forall_mem_append, List.forall_mem_cons]
  refine ⟨⟨⟨⟨⟨⟨⟨⟨⟨other_histogram ?_, other_histogram ?_⟩, other_histogram ?_⟩, other_map ?_⟩,
    known (by decide), ?_⟩, other_map ?_⟩, known (by decide), ?_⟩, known (by decide),
    known (by decide), ?_⟩, other_map ?_⟩, other_map ?_⟩
  · decide
  · decide
  · decide
  · exact fun _ => known (by decide)
  · exact fun _ none_ => absurd none_ List.not_mem_nil
  · exact fun _ => known (by decide)
  · exact fun _ none_ => absurd none_ List.not_mem_nil
  · exact fun _ none_ => absurd none_ List.not_mem_nil
  · exact fun _ => known (by decide)
  · exact fun _ => known (by decide)

theorem mem_compileSamples {template outcome value : String} :
    sample "typst_mcp_compiles_total" [("outcome", outcome), ("template", template)] value ∈
        compileSamples m ↔
      ∃ n, m.state.compiles[(template, outcome)]? = some n ∧ value = toString n := by
  constructor
  · intro inside
    obtain ⟨⟨⟨template', outcome'⟩, n⟩, listed, same⟩ := List.mem_map.1 inside
    obtain ⟨-, labels, rfl⟩ := sample_inj same
    simp only [List.cons.injEq, Prod.mk.injEq, true_and, and_true] at labels
    obtain ⟨rfl, rfl⟩ := labels
    exact ⟨n, Std.ExtTreeMap.mem_toList_iff_getElem?_eq_some.1 listed, rfl⟩
  · rintro ⟨n, found, rfl⟩
    exact List.mem_map.2 ⟨((template, outcome), n),
      Std.ExtTreeMap.mem_toList_iff_getElem?_eq_some.2 found, rfl⟩

/-- **A scraper reads the tally.**  After any run the text is read as the samples it was written
from: there is a compile counter for an outcome under a label exactly if a compile was recorded so,
its value the number of those, and the gauge says how many compiles have started and not left. -/
theorem scrape_reads_back (runs : Runs m log) (store : StoreView) :
    read (render m store).toList = some (samples m store) ∧
    (∀ template outcome value,
      sample "typst_mcp_compiles_total" [("outcome", outcome), ("template", template)] value ∈
          samples m store ↔
        (∃ e ∈ log, e.compileKey? = some (template, outcome)) ∧
          value = toString ((log.countP fun e => e.compileKey? = some (template, outcome)) %
            u64Size)) ∧
    sample "typst_mcp_compiles_in_flight" [] (toString (weight inFlight m.observations % u64Size)) ∈
      samples m store := by
  have counts := runs.tallied.compiles
  refine ⟨?_, fun template outcome value => ?_, ?_⟩
  · rw [render, String.toList_ofList]
    exact (says_render runs store).reads
  · have mine : sample "typst_mcp_compiles_total" [("outcome", outcome), ("template", template)]
        value ∈ samples m store ↔ ∃ n, m.state.compiles[(template, outcome)]? = some n ∧
          value = toString n := by
      rw [← mem_compileSamples]
      refine ⟨fun inside => ?_, List.mem_append_left _⟩
      rcases List.mem_append.1 inside with counted | other
      · exact counted
      · exact absurd rfl (otherSamples_other store _ other)
    rw [mine, ← counts.occurs, ← counts.value, Std.ExtTreeMap.mem_iff_isSome_getElem?,
      Std.ExtTreeMap.getD_eq_getD_getElem?]
    cases found : m.state.compiles[(template, outcome)]? with
    | none => simp
    | some n => simp
  · rw [← runs.observed.gauge]
    refine List.mem_append_right _ ?_
    unfold otherSamples
    simp

/-! ## What the store says -/

theorem sum_iterate (rank : TenantId → Nat) (used : Table TenantId Nat) :
    ((iterate rank used).map (·.2)).sum = (used.entries.map (·.2)).sum := by
  unfold iterate
  rw [((List.perm_insertionSort _ _).map _).sum_eq, List.map_map]
  rfl

theorem sum_own {tenant : TenantId} {n : Nat} {tenants : List TenantId} (distinct : tenants.Nodup) :
    (tenants.map fun t => if tenant = t then n else 0).sum = if tenant ∈ tenants then n else 0 := by
  induction tenants with
  | nil => rfl
  | cons t rest ih =>
      obtain ⟨fresh, later⟩ := List.nodup_cons.1 distinct
      rw [List.map_cons, List.sum_cons, ih later]
      by_cases same : tenant = t
      · subst same
        simp [fresh]
      · simp [same]

/-- **The tenants' bytes add up**: in every state of a store the bytes reported for the tenants sum to
the bytes reported for the whole, whatever order they are listed in. -/
theorem tenants_add_up {limits : TypstMcp.Store.Limits} {codec : TypstMcp.Store.MetaCodec}
    {w : TypstMcp.Store.Solo} (rank : TenantId → Nat)
    (past : TypstMcp.Store.History limits codec (fun w op => op.Fits w.index) w) :
    ((storeView rank w).tenantUsage.map (·.2)).sum = (storeView rank w).usedBytes := by
  have sane : TypstMcp.Store.Sane limits codec False w :=
    TypstMcp.Store.history_sane (fun _ _ fits => ⟨fun no => no.elim, fits⟩) past
  have sound := sane.sound.accounting
  have own : (w.index.perTenant.entries.map (·.2)).sum =
      (w.index.perTenant.keys.map fun tenant =>
        weight (TypstMcp.Store.Index.tenantBytesOf tenant) w.index.entries).sum := by
    show _ = ((w.index.perTenant.entries.map Sigma.fst).map _).sum
    rw [List.map_map]
    refine congrArg List.sum (List.map_congr_left fun e listed => ?_)
    have found : w.index.perTenant.lookup e.1 = some e.2 := mem_entries_iff.1 listed
    show e.2 = weight (TypstMcp.Store.Index.tenantBytesOf e.1) w.index.entries
    rw [← sound.tenant, tally, found]
    rfl
  show ((iterate rank w.index.perTenant).map (·.2)).sum = w.index.total
  rw [sum_iterate, own, sum_weight, sound.total]
  refine weight_eq_weight fun key entry found => ?_
  show (w.index.perTenant.keys.map fun tenant => if key.tenant = tenant then entry.bytes else 0).sum =
    entry.bytes
  rw [sum_own (AList.keys_nodup _)]
  split
  · rfl
  · rename_i absent
    -- a tenant that is not listed is charged nothing, so its entries are empty
    have none_ : w.index.perTenant.lookup key.tenant = none :=
      AList.lookup_eq_none.2 fun inside => absent (AList.mem_keys.1 inside)
    have charged := sound.tenant key.tenant
    rw [tally, none_] at charged
    have least := le_weight (TypstMcp.Store.Index.tenantBytesOf key.tenant) found
    rw [← charged, TypstMcp.Store.Index.tenantBytesOf, if_pos rfl] at least
    exact (Nat.le_zero.1 least).symm

theorem tenants_add_up_firstPut : ∃ w : TypstMcp.Store.Solo, w.index.total = 3 ∧
    ((storeView (fun _ => 0) w).tenantUsage.map (·.2)).sum = 3 := by
  let op : TypstMcp.Store.Op := .putWithId TypstMcp.Store.someTenant .output
    TypstMcp.Store.someKey.id "a.pdf" [1, 2, 3] {}
  obtain ⟨⟨out, w⟩, played, total⟩ : ∃ x, TypstMcp.Store.solo 0
      (op.program TypstMcp.Store.smallLimits TypstMcp.Store.serde) World.fresh = some x ∧
        (x.2.index.total == 3) = true := (Option.any_eq_true _ _).1 (by decide +kernel)
  have past : TypstMcp.Store.History TypstMcp.Store.smallLimits TypstMcp.Store.serde
      (fun w op => op.Fits w.index) w := by
    refine .served .fresh ?_ (TypstMcp.Store.alone_mono (TypstMcp.Store.alone_solo played)
      fun _ _ => trivial)
    show 0 + 3 < u64Size
    decide
  have all := tenants_add_up (fun _ => 0) past
  refine ⟨w, beq_iff_eq.1 total, ?_⟩
  rw [all]
  exact beq_iff_eq.1 total

end Samples

/-- Three compiles have come and gone. -/
theorem scrape_reads_back_overlapping : ∃ m log, Runs (T := Nat) (F := Nat) m log ∧
    read (render m ⟨[], 0, 0, 0⟩).toList = some (samples m ⟨[], 0, 0, 0⟩) ∧
    sample "typst_mcp_compiles_total" [("outcome", "success"), ("template", "hanso")] "1" ∈
      samples m ⟨[], 0, 0, 0⟩ := by
  obtain ⟨⟨m, log⟩, acted, checked⟩ : ∃ x, acts {} overlapping = some x ∧
      ((x.2.countP fun e => e.compileKey? = some ("hanso", "success")) == 1 &&
        x.2.any fun e => e.compileKey? = some ("hanso", "success")) = true :=
    (Option.any_eq_true _ _).1 (by decide +kernel)
  obtain ⟨once, occurs⟩ := (Bool.and_eq_true _ _).mp checked
  have runs : Runs m log := runs_acts .start acted
  obtain ⟨whole, compiles, -⟩ := scrape_reads_back runs ⟨[], 0, 0, 0⟩
  refine ⟨m, log, runs, whole, (compiles "hanso" "success" "1").2 ⟨?_, ?_⟩⟩
  · obtain ⟨e, inside, mine⟩ := List.any_eq_true.1 occurs
    exact ⟨e, inside, of_decide_eq_true mine⟩
  · rw [beq_iff_eq.1 once]
    decide

end TypstMcp.Metrics
