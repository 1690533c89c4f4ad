/-
Http.Links -- from a link to the document

A link carries its expiry and its signature in the query, and both are written in
characters that need no encoding.  So what the query extractor reads of the link is what
was signed, and the download is served until the expiry, whoever asks.

* `parse_query`: what is read of a link's query.
* `download_signed`, `download_late`: what the signature alone decides.
* `link_delivers`: a render, a link to it, and the download through the link.
-/
import TypstMcp.Config.Arithmetic
import TypstMcp.Http.Download
import TypstMcp.Render.Delivery
import TypstMcp.Render.Link
import TypstMcp.Theory.FormUrl

namespace TypstMcp.Http

open TypstMcp.Theory TypstMcp.Theory.Table TypstMcp.Theory.Json
open TypstMcp.Auth (TenantId)
open TypstMcp.Store
open TypstMcp.Render (RenderService RenderRequest RenderResult configUrl documentName link linkTtl
  linkUrl previewName resultFiles render_keeps sizesOf)

set_option autoImplicit false
set_option linter.unusedSectionVars false

/-! ## The query of a link -/

/-- What a link carries after the question mark. -/
def linkQuery (expiresAt : Nat) (signature : String) : String :=
  "exp=" ++ toString expiresAt ++ "&sig=" ++ signature

/-- The parameters as the handler is given them, a map: of pairs of one name the last counts. -/
def paramsOf (query : String) : Table String String :=
  (FormUrl.parse query).foldl (fun params pair => params.insert pair.1 pair.2) ∅

theorem plain_digit {c : Char} (digit : c.isDigit = true) : FormUrl.plainChar c = true := by
  have range := Ascii.isDigit_iff.1 digit
  have each : ∀ n < 58, 48 ≤ n → FormUrl.plainChar (Char.ofNat n) = true := by decide
  have plain := each c.toNat (by omega) range.1
  rwa [Char.ofNat_toNat] at plain

theorem plain_base64 : ∀ c ∈ Base64.alphabet, FormUrl.plainChar c = true :=
  List.all_eq_true.1 (by decide)

theorem plain_number (n : Nat) : ∀ c ∈ (toString n).toList, FormUrl.plainChar c = true :=
  fun _ inside => plain_digit (Ascii.isDigit_of_mem_toString inside)

theorem plain_sign (signer : Signer) (tenant : TenantId) (id : String) (expiresAt : Nat) :
    ∀ c ∈ (signer.sign tenant id expiresAt).toList, FormUrl.plainChar c = true := by
  intro c inside
  unfold Signer.sign Base64.encode at inside
  rw [String.toList_ofList] at inside
  exact plain_base64 c (Base64.encodeChars_mem _ c inside)

/-- What the query extractor reads of a link. -/
theorem parse_query {signature : String} (expiresAt : Nat)
    (plain : ∀ c ∈ signature.toList, FormUrl.plainChar c = true) :
    FormUrl.parse (linkQuery expiresAt signature) =
      [("exp", toString expiresAt), ("sig", signature)] := by
  have exp : FormUrl.writeText "exp" = "exp".toList :=
    FormUrl.writeText_of_plain (List.all_eq_true.1 (by decide))
  have sig : FormUrl.writeText "sig" = "sig".toList :=
    FormUrl.writeText_of_plain (List.all_eq_true.1 (by decide))
  have number := FormUrl.writeText_of_plain (plain_number expiresAt)
  unfold linkQuery
  generalize toString expiresAt = digits at number ⊢
  rw [← FormUrl.parse_serialize [("exp", digits), ("sig", signature)]]
  apply congrArg
  apply String.toList_injective
  simp [FormUrl.serialize, FormUrl.writePair, exp, sig, number, FormUrl.writeText_of_plain plain,
    List.intercalate]

variable {signer : Signer} {tenant : TenantId} {id : String} {expiresAt now : Nat}

theorem params_exp : (paramsOf (linkQuery expiresAt (signer.sign tenant id expiresAt))).lookup "exp" =
    some (toString expiresAt) := by
  rw [paramsOf, parse_query _ (plain_sign signer tenant id expiresAt), List.foldl_cons, List.foldl_cons,
    List.foldl_nil, lookup_insert_eq, if_neg (by simp), lookup_insert_eq, if_pos rfl]

theorem params_sig : (paramsOf (linkQuery expiresAt (signer.sign tenant id expiresAt))).lookup "sig" =
    some (signer.sign tenant id expiresAt) := by
  rw [paramsOf, parse_query _ (plain_sign signer tenant id expiresAt), List.foldl_cons, List.foldl_cons,
    List.foldl_nil, lookup_insert_eq, if_pos rfl]

/-- What a link's query proves. -/
theorem signed_query (small : expiresAt < u64Size) (live : now < expiresAt) :
    signer.Signed now tenant id
      ((paramsOf (linkQuery expiresAt (signer.sign tenant id expiresAt))).lookup "exp")
      ((paramsOf (linkQuery expiresAt (signer.sign tenant id expiresAt))).lookup "sig") := by
  refine ⟨expiresAt, ?_, params_sig, live⟩
  rw [params_exp, Option.bind_some, Config.parseU64_toString small]

/-! ## What the signature decides -/

variable {state : AppState} {job name : String} {params : Table String String} {headers : HeaderMap}

theorem parse_str (tenant : TenantId) : TenantId.parse tenant.str = some tenant :=
  TenantId.parse_eq_some.2 rfl

/-- With a signature that holds it does not matter what credential comes along. -/
theorem download_signed
    (signed : state.signer.Signed now tenant job (params.lookup "exp") (params.lookup "sig")) :
    download state now tenant.str job name params headers = serve state tenant job name := by
  unfold download
  rw [parse_str]
  dsimp only
  split
  · rfl
  · rw [Signer.verifyParams_ok.2 signed]

/-- Once a link has expired it opens nothing. -/
theorem download_late (small : expiresAt < u64Size) (late : expiresAt ≤ now)
    (foreign : (state.authorised headers tenant).1 = false) :
    download state now tenant.str job name
        (paramsOf (linkQuery expiresAt (state.signer.sign tenant id expiresAt))) headers =
      Prog.ret (ApiError.expired "this link has expired; request a fresh one").intoResponse := by
  have verdict : state.signer.verifyParams now tenant job (some (toString expiresAt))
      (some (state.signer.sign tenant id expiresAt)) = .error .expired := by
    unfold Signer.verifyParams Signer.verify
    dsimp only
    rw [Config.parseU64_toString small]
    exact if_pos late
  unfold download
  rw [parse_str]
  dsimp only
  split
  next owned =>
    rw [foreign] at owned
    cases owned
  · rw [params_exp, params_sig, verdict]
    rfl

/-! ## A link to a result -/

variable {F : Type} {service : RenderService F} {request : RenderRequest F} {result : RenderResult}
variable {allowed : Choice → Prop} {limits : Limits} {codec : MetaCodec} {later asked signedUrlTtl : Nat}
variable {card : Card} {files : List (String × Bytes)} {publicUrl : String} {ttl : Option Nat}
variable {w w' w1 w2 w3 w4 : Solo}

/-- While the entry lives a link to it is granted, signed for it alone. -/
theorem link_granted {granted : Except StoreError (String × Nat)}
    (keeps : Keeps limits codec later ⟨tenant, .output, job⟩ card files w) (early : asked ≤ later)
    (ran : Alone (clock asked) () (link signer publicUrl signedUrlTtl tenant job ttl) w granted w') :
    w' = w ∧ granted = .ok (linkUrl publicUrl tenant job (wrapAdd asked (linkTtl signedUrlTtl ttl))
      (signer.sign tenant job (wrapAdd asked (linkTtl signedUrlTtl ttl))),
      wrapAdd asked (linkTtl signedUrlTtl ttl)) := by
  obtain ⟨entry, found, young, -⟩ := keeps.live
  obtain ⟨answer, w1, told, ran⟩ := Prog.exec_bind.1 ran
  obtain ⟨rfl, ⟨_, invalid, _⟩ | ⟨_, reading, clocked, live⟩⟩ :=
    entry_exec keeps.sane.toAtRest.toIdle told
  · rw [show validateId .output job = .ok job from keeps.valid] at invalid
    cases invalid
  · have live : answer = .ok entry := by
      rw [live, liveAt, found]
      have past : reading.now = asked := clocked
      exact if_neg (by simp [Entry.isExpired]; omega)
    subst live
    have named : entry.id = job := ((keeps.sane.toAtRest.good _).listed entry found).id
    obtain ⟨⟨signature, expiresAt⟩, w2, signed, ran⟩ := Prog.exec_bind.1 ran
    obtain ⟨-, choice, ticked, signed⟩ := alone_call.1 signed
    obtain rfl : choice.now = asked := ticked
    obtain ⟨same, rfl⟩ := signed
    obtain ⟨rfl, rfl⟩ := Prod.mk.inj same
    obtain ⟨rfl, rfl⟩ := ran
    exact ⟨rfl, by rw [named]; rfl⟩

/-- A download of a kept file that got past the guard. -/
theorem serve_reads {contents : Bytes} {answer : Response}
    (keeps : Keeps limits codec later ⟨tenant, .output, job⟩ card files w)
    (inside : (safeName name, contents) ∈ files) (apart : safeName name ≠ metaName)
    (ran : Alone (clock later) () (serve state tenant job name) w answer w') :
    answer = {
      status := 200
      headers := [("content-type", if endsWith name ".png" then "image/png" else "application/pdf"),
        ("cache-control", "private, max-age=60")]
      body := .bytes contents } := by
  obtain ⟨found, w1, read, ran⟩ := Prog.exec_bind.1 ran
  obtain rfl := keeps.reads inside apart read
  exact ran.1

theorem endsWith_previewName (page : Nat) : endsWith (previewName page) ".png" = true := by
  unfold endsWith previewName
  rw [List.isSuffixOf_iff_suffix, String.toList_append]
  exact List.suffix_append _ _

/-- How each file of a result is labelled. -/
theorem label_result {pdf contents : Bytes} {previews : List Render.RenderedPreview}
    (inside : (name, contents) ∈ resultFiles pdf previews) :
    (if endsWith name ".png" then "image/png" else "application/pdf") =
      if name = documentName then "application/pdf" else "image/png" := by
  rcases List.mem_cons.1 inside with main | preview
  · obtain ⟨rfl, rfl⟩ := Prod.mk.inj main
    rw [if_neg (by decide), if_pos rfl]
  · obtain ⟨shown, -, same⟩ := List.mem_map.1 preview
    obtain ⟨rfl, -⟩ := Prod.mk.inj same
    rw [if_pos (endsWith_previewName _), if_neg]
    intro same
    have ends := endsWith_previewName shown.page
    rw [same] at ends
    exact absurd ends (by decide)

/-- **A link delivers what was rendered.**  A render the store had room for, a link asked for while
the result lives, and a download, whatever is called between them that leaves the entry: the link is
granted, for no longer than the lifetime configured; until it or the result expires, what the query
extractor reads of it opens every file of the result, byte for byte and whoever asks; and from its own
expiry on it opens nothing to one who may not read the tenant's files anyway. -/
theorem link_delivers (state : AppState)
    (past : History service.limits service.codec (fun w op => op.Fits w.index) w)
    (ran : Alone allowed () (service.render tenant request) w (.ok result) w1)
    (bytes : w.index.stored + (sizesOf result.pdf result.previews).sum ≤ service.limits.maxStoreBytes)
    (entries : size w.index.entries < service.limits.maxStoreEntries)
    (steady : ∀ choice, allowed choice →
      result.expiresAt ≤ wrapAdd choice.now (service.limits.ttl .output))
    (young : later < result.expiresAt) (early : asked ≤ later)
    (before : Meanwhile service.limits service.codec ⟨tenant, .output, result.jobId⟩ later w1 w2)
    {granted : Except StoreError (String × Nat)}
    (minted : Alone (clock asked) () (link state.signer service.publicUrl signedUrlTtl tenant
      result.jobId ttl) w2 granted w3)
    (after : Meanwhile service.limits service.codec ⟨tenant, .output, result.jobId⟩ later w3 w4) :
    ∃ query expiresAt,
      granted = .ok (configUrl service.publicUrl ("files/" ++ tenant.str ++ "/" ++ result.jobId ++ "/" ++
        documentName ++ "?" ++ query), expiresAt) ∧
      expiresAt ≤ asked + signedUrlTtl ∧
      (later < expiresAt → ∀ name contents, (name, contents) ∈ resultFiles result.pdf result.previews →
        ∀ headers answer w5, Alone (clock later) ()
          (download state later tenant.str result.jobId name (paramsOf query) headers) w4 answer w5 →
        answer = {
          status := 200
          headers := [("content-type", if name = documentName then "application/pdf" else "image/png"),
            ("cache-control", "private, max-age=60")]
          body := .bytes contents }) ∧
      ∀ now headers name, expiresAt ≤ now → (state.authorised headers tenant).1 = false →
        download state now tenant.str result.jobId name (paramsOf query) headers =
          Prog.ret (ApiError.expired "this link has expired; request a fresh one").intoResponse := by
  have sane : Sane service.limits service.codec False w :=
    history_sane (fun _ _ fits => ⟨fun no => no.elim, fits⟩) past
  obtain ⟨_, files, keeps, listed⟩ := render_keeps service request sane ran bytes entries
    fun choice may => young.trans_le (steady choice may)
  have keeps := keeps_meanwhile keeps before
  obtain ⟨rfl, rfl⟩ := link_granted keeps early minted
  have keeps := keeps_meanwhile keeps after
  generalize exp : wrapAdd asked (linkTtl signedUrlTtl ttl) = expiresAt
  have small : expiresAt < u64Size := by
    rw [← exp]
    exact Nat.mod_lt _ (by decide)
  have bounded : expiresAt ≤ asked + signedUrlTtl := by
    rw [← exp]
    exact (Nat.mod_le _ _).trans (Nat.add_le_add_left (Nat.min_le_right _ _) _)
  refine ⟨linkQuery expiresAt (state.signer.sign tenant result.jobId expiresAt), expiresAt, ?_, bounded,
    fun live name contents inside headers answer w5 served => ?_,
    fun now headers name late foreign => download_late small late foreign⟩
  · refine congrArg (fun url => Except.ok (url, expiresAt)) (congrArg (configUrl _) ?_)
    apply String.toList_injective
    simp [linkQuery]
  · rw [download_signed (signed_query small live)] at served
    obtain ⟨there, apart⟩ := listed name contents inside
    rw [serve_reads keeps there apart served, label_result inside]

open TypstMcp.Render (printing dear roomyLimits) in
/-- A letter is rendered, linked to for four seconds, and downloaded by a stranger. -/
theorem link_delivers_dear : ∃ (result : RenderResult) (query : String) (w : Solo),
    ∀ headers answer w', Alone (clock 5) ()
      (download doorsState 5 someTenant.str result.jobId documentName (paramsOf query) headers) w
      answer w' → answer.status = 200 ∧ answer.body = .bytes (utf8 "= Dear reader") := by
  obtain ⟨⟨rendered, w1⟩, first, more⟩ : ∃ x,
      solo 0 (printing.render someTenant dear) World.fresh = some x ∧
        (x.1.toOption.any fun result => decide (result.pdf = utf8 "= Dear reader" ∧
          (sizesOf result.pdf result.previews).sum ≤ roomyLimits.maxStoreBytes ∧
          result.expiresAt = 10) &&
          (solo 2 (link doorsState.signer printing.publicUrl 20 someTenant result.jobId (some 4)) x.2).any
            fun y => y.1.toOption.any fun granted => decide (granted.2 = 6)) = true :=
    (Option.any_eq_true _ _).1 (by decide +kernel)
  cases rendered with
  | error failure => cases more
  | ok result =>
      obtain ⟨checked, more⟩ := Bool.and_eq_true_iff.1 more
      obtain ⟨pdf, small, told⟩ := of_decide_eq_true checked
      obtain ⟨⟨granted, w2⟩, second, live⟩ := (Option.any_eq_true _ _).1 more
      have steady : ∀ choice, clock 0 choice →
          result.expiresAt ≤ wrapAdd choice.now (roomyLimits.ttl .output) := by
        intro choice clocked
        rw [told, show choice.now = 0 from clocked]
        decide
      obtain ⟨query, expiresAt, given, -, opens, -⟩ :=
        link_delivers doorsState .fresh (alone_solo first) ((Nat.zero_add _).le.trans small)
          (by decide) steady (show 5 < result.expiresAt by omega) (by decide) .nothing
          (alone_solo second) .nothing
      subst given
      have late : expiresAt = 6 := of_decide_eq_true live
      refine ⟨result, query, w2, fun headers answer w' served => ?_⟩
      obtain rfl := opens (by omega) documentName result.pdf List.mem_cons_self headers answer w' served
      exact ⟨rfl, congrArg _ pdf⟩

end TypstMcp.Http
