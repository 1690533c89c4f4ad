/-
Http.Assets -- a caller's assets, by either door

An asset is posted with the path it will be mounted at, listed with its kind, and named
by its id in the requests that use it.  The kind is what the caller said or what the path
and the content type suggest; both doors work it out, each in its own words.

* `typstAssets_eq`: the two doors list the same.
* `asset_used`: an asset that was accepted, in the listings and in what it is loaded as.
-/
import TypstMcp.Http.Download
import TypstMcp.Http.ErrorContract
import TypstMcp.Store.Keeping
import TypstMcp.Store.Listing
import TypstMcp.Store.Serde

namespace TypstMcp.Http

open TypstMcp.Theory TypstMcp.Theory.Table
open TypstMcp.Theory.Json (utf8)
open TypstMcp.Auth (TenantId)
open TypstMcp.Bundle (BundleFile normalisePath normalisePath_eq_ok)
open TypstMcp.Store
open TypstMcp.Render (Unsaturated liveAt_listed loadAssets loadAssets_ran roomyLimits)

set_option autoImplicit false
set_option linter.unusedSectionVars false

/-! ## Kinds -/

def parseAssetRole (value : String) : Option AssetRole :=
  if value = "image" then some .image
  else if value = "font" then some .font
  else if value = "data" then some .data
  else none

/-- What stands behind the last dot, or all of it, in small letters. -/
def extensionOf (path : String) : List Char :=
  ((path.toList.splitOn '.').getLast?.getD []).map Char.toLower

def fontExtensions : List (List Char) := ["ttf".toList, "otf".toList, "ttc".toList]

def startsWith (text start : String) : Bool := start.toList.isPrefixOf text.toList

def inferAssetRole (path contentType : String) : AssetRole :=
  if extensionOf path ∈ fontExtensions then .font
  else if startsWith contentType "image/" then .image
  else .data

def entryRole (entry : Entry) : AssetRole :=
  entry.assetRole.getD (inferAssetRole (entry.filename.getD "") (entry.contentType.getD ""))

/-- The role as the tools work it out. -/
def assetRole (entry : Entry) : AssetRole :=
  entry.assetRole.getD <|
    let path := entry.filename.getD ""
    if extensionOf path ∈ fontExtensions then .font
    else if entry.contentType.any (startsWith · "image/") then .image
    else .data

/-- What a wrong kind is answered with. -/
def badKind : PublicError := .badRequest "kind must be `image`, `font`, or `data`"

/-! ## Uploading -/

structure UploadQuery where
  path : String
  kind : Option String

/-- The answer to an upload. -/
structure UploadedAsset where
  id : String
  path : String
  contentType : String
  kind : String
  bytes : Nat
  expiresAt : Nat
  deriving DecidableEq

/-- The role a query asks for, if it asks for one there is. -/
def queriedRole (query : UploadQuery) (path contentType : String) : Option AssetRole :=
  match query.kind with
  | some value => parseAssetRole value
  | none => some (inferAssetRole path contentType)

/-- `upload_asset`; `header` is the value of the content type's header. -/
def uploadAsset (limits : Limits) (codec : MetaCodec) (texts : Texts) (tenant : TenantId)
    (query : UploadQuery) (header : Option Bytes) (body : Bytes) :
    StoreProg (Except PublicError UploadedAsset) :=
  if body = [] then return .error (.badRequest "asset body must not be empty")
  else match normalisePath query.path with
    | .error error => return .error (.invalidPath (texts.pathError error))
    | .ok path =>
        let contentType := (header.bind toStr).getD "application/octet-stream"
        match queriedRole query path contentType with
        | none => return .error badKind
        | some role => do
            match ← Store.put limits codec tenant .asset path body
                ⟨some path, some contentType, some role⟩ with
            | .error error => return .error (.plain (.ofStore texts.debug error))
            | .ok entry =>
                return .ok {
                  id := entry.id
                  path
                  contentType
                  kind := role.name
                  bytes := entry.bytes
                  expiresAt := entry.expiresAt }

/-! ## Listing -/

structure AssetJson where
  id : String
  filename : Option String
  contentType : Option String
  bytes : Nat
  kind : String
  createdAt : Nat
  expiresAt : Nat
  deriving DecidableEq

structure AssetList where
  total : Nat
  assets : List AssetJson
  deriving DecidableEq

def assetJson (entry : Entry) : AssetJson where
  id := entry.id
  filename := entry.filename
  contentType := entry.contentType
  bytes := entry.bytes
  kind := (entryRole entry).name
  createdAt := entry.createdAt
  expiresAt := entry.expiresAt

/-- The total is counted before the list is cut. -/
def cutList (limit : Option Nat) (assets : List AssetJson) : AssetList :=
  ⟨assets.length, assets.take (min (limit.getD 100) 1000)⟩

/-- The kind asked for, or any. -/
def kindFilter (kind : Option String) : Except PublicError (Option AssetRole) :=
  match kind with
  | some value =>
      match parseAssetRole value with
      | some role => .ok (some role)
      | none => .error badKind
  | none => .ok none

def toolFilter (kind : Option String) : Except PublicError (Option AssetRole) :=
  match kind with
  | some value =>
      if value = "image" then .ok (some .image)
      else if value = "font" then .ok (some .font)
      else if value = "data" then .ok (some .data)
      else .error badKind
  | none => .ok none

/-- `list_assets`. -/
def listAssets (tenant : TenantId) (kind : Option String) (limit : Option Nat) :
    StoreProg (Except PublicError AssetList) :=
  match kindFilter kind with
  | .error refusal => return .error refusal
  | .ok filter => do
      let entries ← Store.list tenant .asset
      return .ok (cutList limit ((entries.filter fun entry =>
        filter.all (entryRole entry = ·)).map assetJson))

/-- `typst_assets`. -/
def typstAssets (tenant : TenantId) (kind : Option String) (limit : Option Nat) :
    StoreProg (Except PublicError AssetList) :=
  match toolFilter kind with
  | .error refusal => return .error refusal
  | .ok filter => do
      let entries ← Store.list tenant .asset
      return .ok (cutList limit ((entries.filter fun entry =>
        filter.all (assetRole entry = ·)).map fun entry => {
          id := entry.id
          filename := entry.filename
          contentType := entry.contentType
          bytes := entry.bytes
          kind := (assetRole entry).name
          createdAt := entry.createdAt
          expiresAt := entry.expiresAt }))

theorem assetRole_eq : assetRole = entryRole := by
  funext entry
  unfold assetRole entryRole inferAssetRole
  cases entry.contentType with
  | none => simp [startsWith]
  | some contentType => rfl

theorem toolFilter_eq : toolFilter = kindFilter := by
  funext kind
  cases kind with
  | none => rfl
  | some value =>
      dsimp only [toolFilter, kindFilter, parseAssetRole]
      split_ifs <;> rfl

/-- **The two doors list the same.** -/
theorem typstAssets_eq : typstAssets = listAssets := by
  funext tenant kind limit
  unfold typstAssets listAssets
  rw [toolFilter_eq, assetRole_eq]
  rfl

theorem parseAssetRole_eq {value : String} {role : AssetRole} :
    parseAssetRole value = some role ↔ value = role.name := by
  unfold parseAssetRole
  cases role <;> split_ifs <;> simp_all [AssetRole.name]

theorem kindFilter_eq_ok {kind : Option String} {filter : Option AssetRole} :
    kindFilter kind = .ok filter ↔ kind = filter.map AssetRole.name := by
  cases kind with
  | none => cases filter <;> simp [kindFilter]
  | some value =>
      cases filter with
      | none => cases parsed : parseAssetRole value <;> simp [kindFilter, parsed]
      | some role =>
          rw [Option.map_some, Option.some.injEq, ← parseAssetRole_eq]
          cases parsed : parseAssetRole value <;> simp [kindFilter, parsed]

/-! ## Answers -/

variable {limits : Limits} {codec : MetaCodec} {allowed : Choice → Prop} {w w' w1 w2 w3 : Solo}
variable {texts : Texts} {tenant : TenantId} {query : UploadQuery} {header : Option Bytes}
variable {body : Bytes} {uploaded : UploadedAsset} {kind : Option String} {limit : Option Nat}

/-- What a listing that succeeded lists. -/
theorem listAssets_ok (sane : Sane limits codec False w) {answer : AssetList}
    (ran : Alone allowed () (listAssets tenant kind limit) w (.ok answer) w') :
    ∃ (filter : Option AssetRole) (entries : List Entry) (reading : Choice), allowed reading ∧
      kind = filter.map AssetRole.name ∧ Listed w tenant .asset reading.now entries ∧
      answer = cutList limit ((entries.filter fun entry =>
        filter.all (entryRole entry = ·)).map assetJson) := by
  unfold listAssets at ran
  cases asked : kindFilter kind with
  | error refusal =>
      rw [asked] at ran
      cases ran.1
  | ok filter =>
      rw [asked] at ran
      obtain ⟨entries, w1, listed, ran⟩ := Prog.exec_bind.1 ran
      obtain ⟨-, reading, may, listed⟩ := list_listed sane listed
      exact ⟨filter, entries, reading, may, kindFilter_eq_ok.1 asked, listed, Except.ok.inj ran.1⟩

/-- What an upload that succeeded answers, and what the store keeps of it. -/
theorem upload_keeps {later : Nat} (sane : Sane limits codec False w)
    (ran : Alone allowed () (uploadAsset limits codec texts tenant query header body) w
      (.ok uploaded) w')
    (bytes : w.index.stored + body.length ≤ limits.maxStoreBytes)
    (entries : size w.index.entries < limits.maxStoreEntries)
    (fresh : ∀ choice, allowed choice →
      w.index.entries.lookup ⟨tenant, .asset, Kind.asset.idPrefix ++ choice.ulid⟩ = none) :
    ∃ role, queriedRole query query.path uploaded.contentType = some role ∧
      uploaded = {
        id := uploaded.id
        path := query.path
        contentType := (header.bind toStr).getD "application/octet-stream"
        kind := role.name
        bytes := body.length
        expiresAt := uploaded.expiresAt } ∧
      (later < uploaded.expiresAt → ∃ createdAt,
        Keeps limits codec later ⟨tenant, .asset, uploaded.id⟩
          ⟨createdAt, ⟨some query.path, some uploaded.contentType, some role⟩⟩
          [(safeName query.path, body)] w') := by
  unfold uploadAsset at ran
  split at ran
  · cases ran.1
  split at ran
  · cases ran.1
  rename_i path normal
  obtain rfl := (normalisePath_eq_ok.1 normal).2
  dsimp only at ran
  split at ran
  · cases ran.1
  rename_i role asked
  obtain ⟨answer, w1, stored, ran⟩ := Prog.exec_bind.1 ran
  cases answer with
  | error error => cases ran.1
  | ok entry =>
      obtain ⟨same, rfl⟩ := ran
      obtain rfl := Except.ok.inj same
      obtain ⟨_, choice, may, stored⟩ := alone_call.1 stored
      simp only [handle, Prog.ret_bind] at stored
      have absent := fresh choice may
      obtain ⟨reading, -, made⟩ :=
        put_entry ⟨tenant, .asset, Kind.asset.idPrefix ++ choice.ulid⟩ sane stored
      have fits : w.index.stored + body.length < u64Size :=
        lt_of_le_of_lt bytes limits.maxStoreBytes_lt
      have sized : entry.bytes = body.length := by
        rw [made, Index.nextEntry_bytes fits, absent]
        exact Nat.zero_add _
      have carded : entry.card = _ := made ▸ nextEntry_new absent
      refine ⟨role, asked, by rw [sized], fun young => ⟨reading.now, ?_⟩⟩
      obtain ⟨named, keeps, -⟩ :=
        put_stores ⟨tenant, .asset, Kind.asset.idPrefix ++ choice.ulid⟩ sane
          (@spare_of_room _ _ (body.length + 0) bytes entries _) young stored
      have named : entry.id = Kind.asset.idPrefix ++ choice.ulid := named
      rw [carded, ← named] at keeps
      exact keeps

variable {later : Nat} {card : Card} {files : List (String × Bytes)} {id : String}

/-- A listing of everything has the asset, with what is on its card, and no other under its id. -/
theorem listed_kept {entries : List Entry} (keeps : Keeps limits codec later ⟨tenant, .asset, id⟩ card
    files w) (listed : Listed w tenant .asset later entries) :
    ∃ entry ∈ entries, entry.id = id ∧ entry.card = card ∧
      ∀ other ∈ entries, other.id = id → other = entry := by
  obtain ⟨entry, found, young, carded⟩ := keeps.live
  have named : entry.id = id := ((keeps.sane.good _).listed entry found).id
  refine ⟨entry, (listed.mem entry).2 ⟨named ▸ found, young⟩, named, carded, ?_⟩
  intro other inside same
  have found' := ((listed.mem other).1 inside).1
  rw [same, found] at found'
  exact (Option.some.inj found').symm

/-- What stands in a list that is cut: the ones before the cut, or the cut fell before it. -/
theorem mem_cutList {found : List AssetJson} {asset : AssetJson} (inside : asset ∈ found)
    (newest : found.Pairwise fun a b => b.createdAt ≤ a.createdAt) (limit : Option Nat) :
    asset ∈ (cutList limit found).assets ∨
      (cutList limit found).assets.length = min (limit.getD 100) 1000 ∧
      (cutList limit found).assets.length < (cutList limit found).total ∧
      ∀ other ∈ (cutList limit found).assets, asset.createdAt ≤ other.createdAt := by
  obtain ⟨cut, named⟩ : ∃ cut, cut = min (limit.getD 100) 1000 := ⟨_, rfl⟩
  simp only [cutList, ← named]
  rw [← List.take_append_drop cut found] at inside newest
  rcases List.mem_append.1 inside with shown | behind
  · exact .inl shown
  · have beyond : 0 < (found.drop cut).length := List.length_pos_of_mem behind
    rw [List.length_drop] at beyond
    refine .inr ⟨?_, ?_, fun other shown => ?_⟩
    · rw [List.length_take]
      omega
    · rw [List.length_take]
      omega
    · exact (List.pairwise_append.1 newest).2.2 other shown asset behind

/-- What a listing that covers the asset, or does not, shows of it. -/
structure Shows (answer : AssetList) (limit : Option Nat) (id path contentType kind : String)
    (createdAt : Nat) (covered : Prop) : Prop where
  /-- It is shown as it was accepted, and only where its kind is asked for. -/
  shown : ∀ asset ∈ answer.assets, asset.id = id → covered ∧ asset.filename = some path ∧
    asset.contentType = some contentType ∧ asset.kind = kind ∧ asset.createdAt = createdAt
  /-- There it is shown, unless as many no older ones fill the answer. -/
  there : covered → (∃ asset ∈ answer.assets, asset.id = id) ∨
    answer.assets.length = min (limit.getD 100) 1000 ∧ answer.assets.length < answer.total ∧
      ∀ asset ∈ answer.assets, createdAt ≤ asset.createdAt

/-- What a listing says of the asset that is kept. -/
theorem listing_shows {createdAt : Nat} {path contentType : String} {role : AssetRole}
    {answer : AssetList} (keeps : Keeps limits codec later ⟨tenant, .asset, id⟩
      ⟨createdAt, ⟨some path, some contentType, some role⟩⟩ files w)
    (ran : Alone (clock later) () (listAssets tenant kind limit) w (.ok answer) w') :
    Shows answer limit id path contentType role.name createdAt
      (kind = none ∨ kind = some role.name) := by
  obtain ⟨filter, entries, reading, rfl, asked, listed, told⟩ := listAssets_ok keeps.sane ran
  obtain ⟨entry, inside, named, carded, only⟩ := listed_kept keeps listed
  have stamped : entry.createdAt = createdAt := congrArg Card.createdAt carded
  have info : (⟨entry.filename, entry.contentType, entry.assetRole⟩ : Meta) =
      ⟨some path, some contentType, some role⟩ := congrArg Card.info carded
  obtain ⟨filename, typed, roled⟩ := Meta.mk.inj info
  have kept : entryRole entry = role := by
    unfold entryRole
    rw [roled]
    rfl
  subst told
  refine ⟨fun asset shown same => ?_, fun wanted => ?_⟩
  · obtain ⟨other, picked, rfl⟩ := List.mem_map.1 (List.mem_of_mem_take shown)
    obtain ⟨there, picked⟩ := List.mem_filter.1 picked
    obtain rfl := only other there same
    refine ⟨?_, filename, typed, congrArg AssetRole.name kept, stamped⟩
    cases filter with
    | none => exact .inl asked
    | some wanted =>
        obtain rfl : entryRole other = wanted := of_decide_eq_true picked
        exact .inr (asked.trans (congrArg (fun role => some (AssetRole.name role)) kept))
  · have picked : filter.all (entryRole entry = ·) = true := by
      cases filter with
      | none => rfl
      | some role' =>
          rcases wanted with wanted | wanted
          · cases asked.symm.trans wanted
          · have same : role'.name = role.name := Option.some.inj (asked.symm.trans wanted)
            have parsed := parseAssetRole_eq.2 same
            rw [parseAssetRole_eq.2 rfl] at parsed
            obtain rfl := Option.some.inj parsed
            exact decide_eq_true kept
    have newest : ((entries.filter fun entry => filter.all (entryRole entry = ·)).map
        assetJson).Pairwise fun a b => b.createdAt ≤ a.createdAt :=
      List.pairwise_map.2 ((listed.sorted.filter _).imp listedBefore_newer)
    rcases mem_cutList (List.mem_map_of_mem (List.mem_filter.2 ⟨inside, picked⟩)) newest limit with
      shown | ⟨full, cut, newer⟩
    · exact .inl ⟨assetJson entry, shown, named⟩
    · exact .inr ⟨full, cut, fun other there => stamped.symm.trans_le (newer other there)⟩

/-- What is loaded under the id of the asset that is kept. -/
theorem loads_kept {maxBytes : Nat} {ids : List String} {createdAt : Nat} {path contentType : String}
    {role : AssetRole} {loaded : List BundleFile} (keeps : Keeps limits codec later ⟨tenant, .asset, id⟩
      ⟨createdAt, ⟨some path, some contentType, some role⟩⟩ [(safeName path, body)] w)
    (apart : safeName path ≠ metaName) (inside : id ∈ ids)
    (ran : Alone (clock later) () (loadAssets maxBytes tenant ids) w (.ok loaded) w') :
    (⟨path, .binary body⟩ : BundleFile) ∈ loaded := by
  have room : Unsaturated maxBytes w.index := by
    have total := keeps.sane.sound.accounting.total
    have within := keeps.sane.sound.ceilings.bytes
    have capped := limits.maxStoreBytes_lt
    exact .inr (by omega)
  obtain ⟨log, watched⟩ := ran.logged []
  rcases loadAssets_ran room watched with ⟨⟨_, failed⟩, -⟩ | ⟨entries, ⟨_, _, -, -, cleared⟩, read⟩
  · cases failed
  rw [← cleared.listed] at inside
  obtain ⟨asset, listed, rfl⟩ := List.mem_map.1 inside
  obtain ⟨entry, found, -, carded⟩ := keeps.live
  obtain ⟨now, -, live⟩ := mem_of_forall₂ cleared.live listed
  obtain rfl : entry = asset.2 := Option.some.inj (found.symm.trans (liveAt_listed live))
  have named : asset.2.filename = some path := congrArg (fun card => card.info.filename) carded
  obtain ⟨⟨mounted, content⟩, there, placed, bytes, w1, held, got⟩ := mem_of_forall₂ (read loaded rfl) listed
  rw [named] at placed
  obtain rfl : mounted = path := placed
  obtain rfl := Except.ok.inj (keeps.reads List.mem_cons_self apart got)
  obtain rfl : content = .binary bytes := held
  exact there

/-- **An asset that was accepted is there to be used.**  An upload that succeeded was accepted with
its path as it stands, as the kind it asked for or, if it asked for none, the kind its path and its
content type suggest.  If the store had room for it under a fresh id, then until the expiry the caller
is told, whatever is called meanwhile that leaves the entry, every listing by either door shows it with
the path, the content type and the kind of the upload exactly where its kind is covered, unless the
limit of the listing is filled with assets no older; and, where the store's own record has not its file
name, every list of ids with its own among them that can be loaded is loaded with its very bytes under
its path. -/
theorem asset_used {door : TenantId → Option String → Option Nat → StoreProg (Except PublicError AssetList)}
    (past : History limits codec (fun w op => op.Fits w.index) w)
    (ran : Alone allowed () (uploadAsset limits codec texts tenant query header body) w
      (.ok uploaded) w1)
    (bytes : w.index.stored + body.length ≤ limits.maxStoreBytes)
    (entries : size w.index.entries < limits.maxStoreEntries)
    (fresh : ∀ choice, allowed choice →
      w.index.entries.lookup ⟨tenant, .asset, Kind.asset.idPrefix ++ choice.ulid⟩ = none)
    (young : later < uploaded.expiresAt)
    (run : Meanwhile limits codec ⟨tenant, .asset, uploaded.id⟩ later w1 w2)
    (either : door = listAssets ∨ door = typstAssets) :
    (∃ role, queriedRole query query.path uploaded.contentType = some role ∧
      uploaded = {
        id := uploaded.id
        path := query.path
        contentType := (header.bind toStr).getD "application/octet-stream"
        kind := role.name
        bytes := body.length
        expiresAt := uploaded.expiresAt }) ∧
    (∃ createdAt, ∀ kind limit answer w3,
      Alone (clock later) () (door tenant kind limit) w2 (.ok answer) w3 →
      Shows answer limit uploaded.id uploaded.path uploaded.contentType uploaded.kind createdAt
        (kind = none ∨ kind = some uploaded.kind)) ∧
    (safeName uploaded.path ≠ metaName → ∀ maxBytes ids loaded w3, uploaded.id ∈ ids →
      Alone (clock later) () (loadAssets maxBytes tenant ids) w2 (.ok loaded) w3 →
      (⟨uploaded.path, .binary body⟩ : BundleFile) ∈ loaded) := by
  have sane : Sane limits codec False w :=
    history_sane (fun _ _ fits => ⟨fun no => no.elim, fits⟩) past
  obtain ⟨role, asked, whole, keeps⟩ := upload_keeps sane ran bytes entries fresh
  obtain ⟨createdAt, keeps⟩ := keeps young
  have keeps := keeps_meanwhile keeps run
  have path : uploaded.path = query.path := congrArg UploadedAsset.path whole
  have kinds : uploaded.kind = role.name := congrArg UploadedAsset.kind whole
  have doors : door = listAssets := either.elim id fun tool => tool.trans typstAssets_eq
  subst doors
  rw [path, kinds]
  refine ⟨⟨role, asked, whole⟩, ⟨createdAt, fun kind limit answer w3 listed => ?_⟩,
    fun apart maxBytes ids loaded w3 inside ran => ?_⟩
  · exact listing_shows keeps listed
  · exact loads_kept keeps apart inside ran

/-- A logo is posted, and listed and loaded five seconds later. -/
theorem asset_used_logo : ∃ uploaded w1,
    uploaded.kind = "image" ∧
    Alone (clock 0) () (uploadAsset roomyLimits serde plainTexts someTenant ⟨"logo.png", none⟩
      (some (utf8 "image/png")) [1, 2, 3]) World.fresh (.ok uploaded) w1 ∧
    ∀ w2, Meanwhile roomyLimits serde ⟨someTenant, .asset, uploaded.id⟩ 5 w1 w2 →
      (∀ answer w3, Alone (clock 5) () (typstAssets someTenant (some "image") none) w2 (.ok answer) w3 →
        answer.total ≤ 100 → ∃ asset ∈ answer.assets, asset.id = uploaded.id ∧
          asset.filename = some "logo.png") ∧
      (∀ answer w3, Alone (clock 5) () (typstAssets someTenant (some "font") none) w2 (.ok answer) w3 →
        ∀ asset ∈ answer.assets, asset.id ≠ uploaded.id) ∧
      ∀ loaded w3, Alone (clock 5) () (loadAssets 8 someTenant [uploaded.id]) w2 (.ok loaded) w3 →
        (⟨"logo.png", .binary [1, 2, 3]⟩ : BundleFile) ∈ loaded := by
  obtain ⟨⟨answer, w1⟩, played, checked⟩ : ∃ x,
      solo 0 (uploadAsset roomyLimits serde plainTexts someTenant ⟨"logo.png", none⟩
        (some (utf8 "image/png")) [1, 2, 3]) World.fresh = some x ∧
        (x.1.toOption.any fun uploaded => decide (uploaded.expiresAt = 10 ∧
          uploaded.kind = "image" ∧ uploaded.path = "logo.png")) = true :=
    (Option.any_eq_true _ _).1 (by decide +kernel)
  cases answer with
  | error refusal => cases checked
  | ok uploaded =>
      obtain ⟨told, kinds, path⟩ := of_decide_eq_true checked
      have young : 5 < uploaded.expiresAt := by omega
      refine ⟨uploaded, w1, kinds, alone_solo played, fun w2 run => ?_⟩
      obtain ⟨-, ⟨createdAt, lists⟩, loads⟩ := asset_used .fresh (alone_solo played) (by decide)
        (by decide) (fun _ _ => rfl) young run (.inr rfl)
      refine ⟨fun answer w3 listed all => ?_, fun answer w3 listed asset inside same => ?_,
        fun loaded w3 ran => ?_⟩
      · have shows := lists (some "image") none answer w3 listed
        rcases shows.there (.inr (congrArg some kinds.symm)) with ⟨asset, inside, same⟩ | ⟨full, cut, -⟩
        · exact ⟨asset, inside, same, path ▸ (shows.shown asset inside same).2.1⟩
        · have full : answer.assets.length = 100 := full
          omega
      · rcases ((lists (some "font") none answer w3 listed).shown asset inside same).1 with
          none_ | other
        · cases none_
        · rw [kinds] at other
          exact absurd (Option.some.inj other) (by decide)
      · exact path ▸ loads (by rw [path]; decide) 8 _ loaded w3 List.mem_cons_self ran

end TypstMcp.Http
