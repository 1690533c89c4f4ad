/-
Config.Arithmetic -- the sums made of an accepted configuration

A retention or a link lifetime is added to the clock, and one to what is left of an
archive's budget.  The parsers check their own products only, so an accepted
configuration may make these sums wrap.

* `putWithId_expiry`, `fromArchive_whole`: what a put and a decoded archive come to.
* `arithmetic_sound_iff`: exactly which settings keep every sum in range.
-/
import TypstMcp.Config.Source
import TypstMcp.Render.Link
import TypstMcp.Template.Decoding

namespace TypstMcp.Config

open TypstMcp.Bundle TypstMcp.Theory TypstMcp.Theory.Json
open TypstMcp.Auth (Hmac TenantId trim)
open TypstMcp.Http (Signer parseU64)
open TypstMcp.Render TypstMcp.Store
open TypstMcp.Template (Crates Decoding Numeral Progress TarCrate TarEntry classify classify_asBytes
  digitsValue fromArchive fromArchive_eq fromSourceFiles numeral_plain numeral_plus readEntry
  usizeSize)

set_option autoImplicit false
set_option linter.dupNamespace false

/-- Clock readings are below this. -/
def clockEnd : Nat := 2 ^ 40

/-! ## A put -/

section Puts

variable {S : Type} {step : (c : Call) → S → Reply c → S → Prop}

theorem nextEntry_expiresAt (limits : Limits) (index : Index) (key : Key) (size t : Nat)
    (info : Meta) : (index.nextEntry limits key size t info).expiresAt =
      wrapAdd t (limits.ttl key.kind) := by
  unfold Index.nextEntry
  cases index.entries.lookup key <;> rfl

theorem putLocked_expiry {limits : Limits} {codec : MetaCodec} {key : Key} {name : String}
    {bytes : Bytes} {info : Meta} {index index' : Index} {entry : Entry} {note : Note}
    {s s' : S × List (Prog.Event Call Reply)}
    (ran : (putLocked limits codec key name bytes info index).Exec (Prog.logged step) s
      (.ok entry, index', note) s') :
    ∃ t, ClockRead s'.2 t ∧ entry.expiresAt = wrapAdd t (limits.ttl key.kind) := by
  unfold putLocked at ran
  dsimp only at ran
  split at ran
  · obtain ⟨same, -⟩ := ran
    cases same
  · obtain ⟨made, s1, -, ran⟩ := ran
    simp only [Prog.ret_bind] at ran
    split at ran
    · obtain ⟨same, -⟩ := ran
      cases same
    obtain ⟨there, s2, -, ran⟩ := ran
    simp only [Prog.ret_bind] at ran
    split at ran
    · obtain ⟨same, -⟩ := ran
      cases same
    obtain ⟨written, s3, -, ran⟩ := Prog.exec_bind.1 ran
    split at ran
    · obtain ⟨same, -⟩ := ran
      cases same
    obtain ⟨t, s4, ⟨-, logged⟩, ran⟩ := ran
    have read : ClockRead s4.2 t := by rw [ClockRead, logged]; simp
    simp only [Prog.ret_bind] at ran
    -- nothing is taken back from a log
    have kept : ClockRead s'.2 t := ran.grows.subset read
    obtain ⟨recorded, s5, -, ran⟩ := Prog.exec_bind.1 ran
    split at ran
    · obtain ⟨_, s6, -, ran⟩ := ran
      obtain ⟨same, -⟩ := ran
      cases same
    · obtain ⟨_, s6, -, ran⟩ := Prog.exec_bind.1 ran
      obtain ⟨same, -⟩ := ran
      obtain ⟨same, -⟩ := Prod.mk.inj same
      obtain rfl := Except.ok.inj same
      exact ⟨t, kept, nextEntry_expiresAt ..⟩

/-- **What a put stores expires its kind's retention after a reading of the clock,** as a
`u64`. -/
theorem putWithId_expiry {limits : Limits} {codec : MetaCodec} {tenant : TenantId} {kind : Kind}
    {id name : String} {bytes : Bytes} {info : Meta} {entry : Entry}
    {s s' : S × List (Prog.Event Call Reply)}
    (ran : (putWithId limits codec tenant kind id name bytes info).Exec (Prog.logged step) s
      (.ok entry) s') :
    ∃ t, ClockRead s'.2 t ∧ entry.expiresAt = wrapAdd t (limits.ttl kind) := by
  unfold putWithId at ran
  split at ran
  · obtain ⟨same, -⟩ := ran
    cases same
  · obtain ⟨index, s1, -, ran⟩ := ran
    simp only [Prog.ret_bind] at ran
    obtain ⟨⟨result, index', note⟩, s2, put, ran⟩ := Prog.exec_bind.1 ran
    have kept : s2.2 <+: s'.2 := ran.grows
    obtain ⟨_, s3, -, ran⟩ := ran
    obtain ⟨rfl, -⟩ := ran
    obtain ⟨t, read, expires⟩ := putLocked_expiry put
    exact ⟨t, kept.subset read, expires⟩

end Puts

/-! ## An archive -/

/-- The file holds all of the member. -/
def Whole (entry : Except String TarEntry) (file : BundleFile) : Prop :=
  ∃ member, entry = .ok member ∧ utf8 file.path = member.pathBytes ∧
    file.content.asBytes = member.content.bytes

theorem readEntry_whole {maxBytes : Nat} {progress after : Progress}
    {entry : Except String TarEntry} (small : maxBytes + 1 < usizeSize)
    (fits : progress.total ≤ maxBytes) (read : readEntry maxBytes progress entry = .ok after) :
    after.total ≤ maxBytes ∧ ∃ file, after.files = progress.files ++ [file] ∧ Whole entry file := by
  unfold readEntry at read
  split at read
  · cases read
  next member =>
    split at read
    · cases read
    next path valid =>
      split at read
      · cases read
      · split_ifs at read with link count
        dsimp only at read
        split_ifs at read with declared
        rw [Nat.mod_eq_of_lt (by omega)] at read
        split at read
        · cases read
        next content taken =>
          split_ifs at read with beyond
          obtain rfl := Except.ok.inj read
          refine ⟨Nat.le_of_not_lt beyond, _, rfl, member, rfl, utf8_of_fromUtf8 valid, ?_⟩
          rw [classify_asBytes]
          unfold Template.Stream.readToEnd at taken
          split_ifs at taken with cut
          · -- a member that is cut goes beyond the limit
            obtain rfl := Except.ok.inj taken
            have length : (member.content.bytes.take (maxBytes - progress.total + 1)).length =
                maxBytes - progress.total + 1 := List.length_take_of_le cut
            refine (beyond ?_).elim
            unfold Template.saturatingAdd
            omega
          · split at taken
            · cases taken
            · exact (Except.ok.inj taken).symm

theorem readEntries_whole {maxBytes : Nat} {progress last : Progress}
    {entries : List (Except String TarEntry)} (small : maxBytes + 1 < usizeSize)
    (fits : progress.total ≤ maxBytes)
    (read : entries.foldlM (readEntry maxBytes) progress = .ok last) :
    ∃ files, last.files = progress.files ++ files ∧ List.Forall₂ Whole entries files := by
  induction entries generalizing progress with
  | nil =>
      rw [List.foldlM_nil] at read
      obtain rfl := pure_eq_ok.1 read
      exact ⟨[], (List.append_nil _).symm, .nil⟩
  | cons entry rest ih =>
      rw [List.foldlM_cons] at read
      obtain ⟨next, first, read⟩ := bind_eq_ok.1 read
      obtain ⟨within, file, added, whole⟩ := readEntry_whole small fits first
      obtain ⟨files, all, wholes⟩ := ih within read
      exact ⟨file :: files, by rw [all, added, List.append_assoc]; rfl, .cons whole wholes⟩

variable {F : Type}

/-- The template is made of the members, each with all of its bytes. -/
def Uncut (crates : Crates F) (tar : TarCrate) (bytes : Bytes) (maxBytes : Nat)
    (template : Template.Template F) : Prop :=
  ∃ entries files, tar.entries (Decoding.start tar bytes maxBytes).reader.stream = .ok entries ∧
    List.Forall₂ Whole entries files ∧ fromSourceFiles crates files maxBytes = .ok template

/-- **No member is cut** where the budget leaves room for one byte more. -/
theorem fromArchive_whole {crates : Crates F} {tar : TarCrate} {bytes : Bytes} {maxBytes : Nat}
    {template : Template.Template F} (small : maxBytes + 1 < usizeSize)
    (decoded : fromArchive crates tar bytes maxBytes = .ok template) :
    Uncut crates tar bytes maxBytes template := by
  rw [fromArchive_eq] at decoded
  obtain ⟨entries, listed, decoded⟩ := bind_eq_ok.1 decoded
  obtain ⟨last, read, decoded⟩ := bind_eq_ok.1 decoded
  obtain ⟨files, all, whole⟩ := readEntries_whole small (Nat.zero_le _) read
  rw [all] at decoded
  exact ⟨entries, files, mapError_eq_ok.1 listed, whole, decoded⟩

/-! ## The sums -/

variable {Addr : Type}

/-- An entry put with a retention of at least one second is live at a reading of the clock made
in the put. -/
def Live (limits : Limits) : Prop :=
  ∀ (S : Type) (step : (c : Call) → S → Reply c → S → Prop) (codec : MetaCodec)
    (tenant : TenantId) (kind : Kind) (id name : String) (bytes : Bytes) (info : Meta)
    (entry : Entry) (s s' : S) (log : List (Prog.Event Call Reply)),
    (putWithId limits codec tenant kind id name bytes info).Exec (Prog.logged step) (s, [])
      (.ok entry) (s', log) →
    (∀ t, ClockRead log t → t < clockEnd) → 1 ≤ limits.ttl kind →
    ∃ t, ClockRead log t ∧ entry.isExpired t = false

/-- A link with a lifetime of at least one second verifies at a reading of the clock made in its
minting. -/
def Verifies (config : Config Addr) : Prop :=
  ∀ (S : Type) (step : (c : Call) → S → Reply c → S → Prop) (hmac : Hmac) (tenant : TenantId)
    (jobId : String) (asked : Option Nat) (url : String) (expiresAt : Nat) (s s' : S)
    (log : List (Prog.Event Call Reply)),
    (link ⟨hmac, config.signingSecret⟩ config.publicUrl config.signedUrlTtl.val tenant jobId
      asked).Exec (Prog.logged step) (s, []) (.ok (url, expiresAt)) (s', log) →
    (∀ t, ClockRead log t → t < clockEnd) → 1 ≤ linkTtl config.signedUrlTtl.val asked →
    ∃ id signature t, url = linkUrl config.publicUrl tenant id expiresAt signature ∧
      ClockRead log t ∧ Signer.verifyParams ⟨hmac, config.signingSecret⟩ t tenant id
        (some (toString expiresAt)) (some signature) = .ok ()

/-- No sum wraps, and what would follow from one that does not happen. -/
structure Config.Sound (config : Config Addr) : Prop where
  expiry : ∀ now < clockEnd, ∀ kind, now + config.limits.ttl kind < u64Size
  link : ∀ now < clockEnd, ∀ asked, now + linkTtl config.signedUrlTtl.val asked < u64Size
  archive : ∀ total ≤ config.maxBundleBytes.val,
    config.maxBundleBytes.val - total + 1 < usizeSize
  live : Live config.limits
  verifies : Verifies config
  uncut : ∀ (F : Type) (crates : Crates F) (tar : TarCrate) (bytes : Bytes)
    (template : Template.Template F),
    fromArchive crates tar bytes config.maxBundleBytes.val = .ok template →
    Uncut crates tar bytes config.maxBundleBytes.val template

/-- The clock cannot go beyond a `u64` by this setting. -/
def Bounded (get : Source) (name : String) : Prop :=
  ∀ raw secs, get name = some raw → Means raw secs → secs + clockEnd ≤ u64Size

/-- No retention and no lifetime is set to more than `2^64 - 2^40` seconds, and the size of a
bundle is not set to the largest number there is. -/
structure Fitting (get : Source) : Prop where
  times : ∀ name ∈ ["OUTPUT_TTL", "ASSET_TTL", "TEMPLATE_TTL", "SIGNED_URL_TTL"], Bounded get name
  size : ∀ raw, get "MAX_BUNDLE_BYTES" = some raw → ¬ Numeral (trim raw).toList (u64Size - 1)

/-! ## What the settings say -/

theorem numeral_unique {text : List Char} {n m : Nat} (first : Numeral text n)
    (second : Numeral text m) : n = m := by
  have read : ∃ value : Option Nat, ∀ k, Numeral text k ↔ value = some k := by
    by_cases signed : ∃ rest, text = '+' :: rest
    · obtain ⟨rest, rfl⟩ := signed
      exact ⟨digitsValue rest, fun _ => numeral_plus⟩
    · exact ⟨digitsValue text, fun _ => numeral_plain fun rest same => signed ⟨rest, same⟩⟩
  obtain ⟨value, is⟩ := read
  exact Option.some.inj (((is n).1 first).symm.trans ((is m).1 second))

theorem means_unique {raw : String} {secs secs' : Nat} (first : Means raw secs)
    (second : Means raw secs') : secs = secs' := by
  obtain ⟨n, numeral, rfl⟩ := means_iff.1 first
  obtain ⟨n', numeral', rfl⟩ := means_iff.1 second
  rw [numeral_unique numeral numeral']

theorem numeral_ne_nil {n : Nat} : ¬ Numeral [] n := by
  rintro ⟨digits, same | same, some_, -⟩
  · exact some_ same.symm
  · cases same

/-- A setting that says something is given. -/
theorem given_of_numeral {get : Source} {name raw : String} {digits rest : List Char} {n : Nat}
    (found : get name = some raw) (text : (trim raw).toList = digits ++ rest)
    (numeral : Numeral digits n) : given get name = some raw := by
  refine given_eq_some.2 ⟨found, fun empty => ?_⟩
  rw [empty, String.toList_empty, eq_comm, List.append_eq_nil_iff] at text
  rw [text.1] at numeral
  exact numeral_ne_nil numeral

theorem duration_bounded {get : Source} {name : String} {default secs : U64}
    (usual : default.val + clockEnd ≤ u64Size) (read : duration get name default = .ok secs) :
    secs.val + clockEnd ≤ u64Size ↔ Bounded get name := by
  rcases duration_ok.1 read with ⟨unset, rfl⟩ | ⟨raw, set, means⟩
  · refine iff_of_true usual fun raw secs found means => ?_
    obtain ⟨digits, unit, scale, n, -, text, numeral, -⟩ := means
    rw [given_of_numeral found text numeral] at unset
    cases unset
  · constructor
    · intro fits raw' secs' found means'
      obtain rfl := Option.some.inj ((given_eq_some.1 set).1.symm.trans found)
      rwa [means_unique means' means]
    · exact fun bounded => bounded raw secs.val (given_eq_some.1 set).1 means

theorem number_bounded {get : Source} {name : String} {default n : U64}
    (usual : default.val + 1 < u64Size) (read : number get name default = .ok n) :
    n.val + 1 < u64Size ↔
      ∀ raw, get name = some raw → ¬ Numeral (trim raw).toList (u64Size - 1) := by
  rcases (number_ok (Nat.le_refl _)).1 read with ⟨unset, rfl⟩ | ⟨raw, set, numeral⟩
  · refine iff_of_true usual fun raw found largest => ?_
    rw [given_of_numeral found (List.append_nil _).symm largest] at unset
    cases unset
  · have inRange := n.property
    constructor
    · intro fits raw' found largest
      obtain rfl := Option.some.inj ((given_eq_some.1 set).1.symm.trans found)
      have := numeral_unique numeral largest
      omega
    · intro smaller
      by_contra largest
      obtain same : n.val = u64Size - 1 := by omega
      exact smaller raw (given_eq_some.1 set).1 (same ▸ numeral)

/-- A number reads back from its own digits. -/
theorem parseU64_toString {n : Nat} (small : n < u64Size) : parseU64 (toString n) = some n := by
  have digits := Ascii.toString_toList n
  refine parseU64_eq.2 ⟨⟨_, .inl digits, ?_, ?_, Nat.ofDigitChars_ten_toDigits⟩, small⟩
  · exact List.ne_nil_of_length_pos (Nat.length_toDigits_pos)
  · exact List.all_eq_true.2 fun c inside =>
      Ascii.isDigit_of_mem_toString (digits.symm ▸ inside)

/-! ## From the sums to what follows -/

variable {config : Config Addr} {platform : Platform Addr} {get : Source}

theorem live_of_expiry {limits : Limits}
    (expiry : ∀ now < clockEnd, ∀ kind, now + limits.ttl kind < u64Size) : Live limits := by
  intro S step codec tenant kind id name bytes info entry s s' log ran clock some_
  obtain ⟨t, read, expires⟩ := putWithId_expiry ran
  refine ⟨t, read, decide_eq_false ?_⟩
  rw [expires, wrapAdd_of_lt (expiry t (clock t read) kind)]
  omega

theorem verifies_of_link
    (link : ∀ now < clockEnd, ∀ asked, now + linkTtl config.signedUrlTtl.val asked < u64Size) :
    Verifies config := by
  intro S step hmac tenant jobId asked url expiresAt s s' log minted clock some_
  obtain ⟨id, t, read, expires, rfl⟩ := link_ok minted
  have inRange := link t (clock t read) asked
  rw [wrapAdd_of_lt inRange] at expires
  subst expires
  refine ⟨id, _, t, rfl, read, Signer.verifyParams_ok.2 ⟨_, ?_, rfl, by omega⟩⟩
  exact parseU64_toString inRange

/-- **Exactly these settings keep every sum in range.** -/
theorem arithmetic_sound_iff (platform : Platform Addr) (get : Source) (config : Config Addr)
    (accepted : fromSource platform get = .ok config) : config.Sound ↔ Fitting get := by
  obtain ⟨link, bundle, kept⟩ := fromSource_read accepted
  obtain ⟨⟨output, ofOutput, outputTtl⟩, ⟨asset, ofAsset, assetTtl⟩, template, ofTemplate,
    templateTtl⟩ := limits_read kept
  have outputs := duration_bounded (by decide) ofOutput
  have assets := duration_bounded (by decide) ofAsset
  have templates := duration_bounded (by decide) ofTemplate
  have links := duration_bounded (by decide) link
  have sizes := number_bounded (by decide) bundle
  rw [← outputTtl] at outputs
  rw [← assetTtl] at assets
  rw [← templateTtl] at templates
  have last : clockEnd - 1 < clockEnd := by decide
  have some_ : 0 < clockEnd := by decide
  constructor
  · intro sound
    have expiry := sound.expiry _ last
    refine ⟨?_, sizes.1 (sound.archive 0 (Nat.zero_le _))⟩
    simp only [List.forall_mem_cons, List.not_mem_nil, false_implies, implies_true, and_true]
    refine ⟨outputs.1 ?_, assets.1 ?_, templates.1 ?_, links.1 ?_⟩
    · have := expiry .output
      omega
    · have := expiry .asset
      omega
    · have := expiry .template
      omega
    · -- a link lives longest when no lifetime is asked for
      have longest := sound.link _ last none
      rw [linkTtl, Option.getD_none, Nat.min_self] at longest
      omega
  · rintro ⟨times, size⟩
    simp only [List.forall_mem_cons, List.not_mem_nil, false_implies, implies_true, and_true]
      at times
    have expiry : ∀ now < clockEnd, ∀ kind, now + config.limits.ttl kind < u64Size := by
      intro now early kind
      cases kind with
      | output => have := outputs.2 times.1; omega
      | asset => have := assets.2 times.2.1; omega
      | template => have := templates.2 times.2.2.1; omega
    have lifetime : ∀ now < clockEnd, ∀ asked,
        now + linkTtl config.signedUrlTtl.val asked < u64Size := by
      intro now early asked
      have := links.2 times.2.2.2
      have : linkTtl config.signedUrlTtl.val asked ≤ config.signedUrlTtl.val := Nat.min_le_right _ _
      omega
    have room := sizes.2 size
    exact {
      expiry
      link := lifetime
      archive := fun total _ => lt_of_le_of_lt (Nat.succ_le_succ (Nat.sub_le _ _)) room
      live := live_of_expiry expiry
      verifies := verifies_of_link lifetime
      uncut := fun F crates tar bytes template decoded => fromArchive_whole room decoded }

/-- A host asked for the default addresses only. -/
def defaultAddresses : Platform (List Nat × Nat) where
  sha256 _ := []
  parseUrl _ := none
  parseAddr text :=
    [("0.0.0.0:3000", ([0, 0, 0, 0], 3000)), ("0.0.0.0:9090", ([0, 0, 0, 0], 9090))].lookup text
  availableParallelism := some 8

/-- The least a deployment with an identity provider sets, and these settings. -/
def deployment (more : List (String × String)) : Source := fun name =>
  (more ++ [("PUBLIC_URL", "https://typst.example.com"),
    ("TENANT_SALT", "0123456789abcdef0123456789abcdef"),
    ("SIGNING_SECRET", "0123456789abcdef0123456789abcdef"),
    ("OIDC_ISSUER", "https://login.microsoftonline.com/abc/v2.0"),
    ("OIDC_AUDIENCE", "api://typst-mcp")]).lookup name

theorem arithmetic_sound_iff_week : ∃ config,
    fromSource defaultAddresses (deployment [("OUTPUT_TTL", "7d")]) = .ok config ∧
      (config.Sound ↔ Fitting (deployment [("OUTPUT_TTL", "7d")])) := by
  obtain ⟨config, accepted⟩ := ok_of_isOk (show (fromSource defaultAddresses
    (deployment [("OUTPUT_TTL", "7d")])).isOk = true by decide +kernel)
  exact ⟨config, accepted, arithmetic_sound_iff _ _ config accepted⟩

/-- The longest retention is accepted, and what is stored with it has expired at once. -/
theorem longest_retention_wraps : ∃ config,
    fromSource defaultAddresses (deployment [("OUTPUT_TTL", "18446744073709551615")]) =
      .ok config ∧ ¬ config.Sound ∧
      ∀ (index : Index) (key : Key) (size : Nat) (info : Meta), key.kind = .output →
        (index.nextEntry config.limits key size 1000000000 info).isExpired 1000000000 = true := by
  obtain ⟨config, accepted⟩ := ok_of_isOk (show (fromSource defaultAddresses
    (deployment [("OUTPUT_TTL", "18446744073709551615")])).isOk = true by decide +kernel)
  obtain ⟨⟨secs, read, ttl⟩, -⟩ := limits_read (fromSource_read accepted).2.2
  have longest : secs.val = u64Size - 1 := by
    have value : (duration (deployment [("OUTPUT_TTL", "18446744073709551615")]) "OUTPUT_TTL"
        ⟨2 * 60 * 60, by decide⟩).toOption.map Subtype.val = some (u64Size - 1) := by
      decide +kernel
    rw [read] at value
    exact Option.some.inj value
  refine ⟨config, accepted, fun sound => ?_, fun index key size info output => ?_⟩
  · have inRange := sound.expiry 1000000000 (by decide) .output
    rw [ttl, longest] at inRange
    exact absurd inRange (by decide)
  · rw [Entry.isExpired, nextEntry_expiresAt, output, ttl, longest]
    decide

end TypstMcp.Config
