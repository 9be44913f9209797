import Curio.Mk20.Deal

/-! What an accepted Mk20 deal makes the provider fetch, against what was checked.

The validation walks a deal by its format, the insertions walk it by its source. -/

namespace Curio.Mk20

open GoRuntime RobustHttp List

section Purpose

variable (lib : Libraries)

def FetchAccepted (url : String) (headers : Header) : Prop :=
  ∃ parsed, validateClientFetchURL lib.net url headers lib.fetchPolicy = .ok parsed

def Stored.pieceCIDs (stored : Stored) : List Cid :=
  stored.refs.map (·.pieceCIDV2) ++ stored.mk20Pipeline.map (·.pieceCidV2) ++
    stored.pdpPipeline.map (·.pieceCidV2)

def Stored.refsOf (stored : Stored) (cid : Cid) : List ParkedPieceDownloadRef :=
  stored.refs.filter (·.pieceCIDV2 = cid)

/-- Everything that is stored for download was checked, and every piece keeps to the maxima. -/
structure Stored.Checked (stored : Stored) : Prop where
  urls : ∀ ref ∈ stored.refs, FetchAccepted lib ref.url ref.headers
  cids : ∀ cid ∈ stored.pieceCIDs, validatePieceCID lib cid = .ok ()
  urlCount : ∀ cid, (stored.refsOf cid).length ≤ maxURLCount
  headerCount : ∀ cid, ((stored.refsOf cid).map (·.headers.length)).sum ≤ maxHeaderCount

end Purpose

section Deals

variable (lib : Libraries)

def DataSource.urls (d : DataSource) : List HttpUrl := d.sourceHTTP.getD []

def DataSource.inserted (d : DataSource) : List DataSource :=
  match d.sourceHTTP, d.sourceOffline, d.sourceAggregate with
  | some _, _, _ => [d]
  | none, true, _ => [d]
  | none, false, some pieces => pieces
  | none, false, none => []

structure PieceChecked (p : DataSource) : Prop where
  cid : validatePieceCID lib p.pieceCID = .ok ()
  urls : ∀ u ∈ p.urls, FetchAccepted lib u.url u.headers

def urlsOf (cid : Cid) (sources : List DataSource) : List HttpUrl :=
  (sources.filter (·.pieceCID = cid)).flatMap DataSource.urls

/-- No piece gets too many URLs or headers from its data sources together. -/
def WithinMaxima (sources : List DataSource) : Prop :=
  ∀ cid, (urlsOf cid sources).length ≤ maxURLCount ∧
    ((urlsOf cid sources).map (·.headers.length)).sum ≤ maxHeaderCount

/-- What the validation leaves open: the pieces of an aggregate source under another format, and
how much the data sources of one piece carry together. -/
structure DataSource.Closed (d : DataSource) : Prop where
  pieces : d.format.aggregate.isNone → ∀ pieces, d.sourceAggregate = some pieces →
    ∀ p ∈ pieces, PieceChecked lib p
  maxima : WithinMaxima d.inserted

end Deals

variable {urls : List HttpUrl} {d : DataSource} {stored : Stored}

section Validated

variable {lib : Libraries} {settings : Settings}

theorem httpUrl_validate_eq_ok {u : HttpUrl} :
    u.validate lib = .ok () ↔ FetchAccepted lib u.url u.headers := by
  grind [HttpUrl.validate, FetchAccepted]

theorem validateURLs_accepts {noURLs : String} (ok : validateURLs lib urls noURLs = .ok ()) :
    ∀ u ∈ urls, FetchAccepted lib u.url u.headers := by
  simp only [validateURLs, check_bind_eq_ok, forM_eq_ok] at ok
  intro u member
  exact httpUrl_validate_eq_ok.mp (ok.2.2 u member).1

theorem DataSource.urls_accepted
    (http : ∀ urls, d.sourceHTTP = some urls → ∀ u ∈ urls, FetchAccepted lib u.url u.headers) :
    ∀ u ∈ d.urls, FetchAccepted lib u.url u.headers := by
  unfold DataSource.urls
  cases source : d.sourceHTTP with
  | none => simp
  | some urls => exact http urls source

theorem validatePiece_checks {p : DataSource} (ok : validatePiece lib p = .ok ()) :
    PieceChecked lib p := by
  simp only [validatePiece, validateSubFormat, check_bind_eq_ok, mapError_eq_ok,
    checkSome_eq_ok] at ok
  obtain ⟨⟨cid, _⟩, _, _, _, http⟩ := ok
  exact ⟨cid, DataSource.urls_accepted fun urls source => validateURLs_accepts (http urls source)⟩

structure DataSource.Validated (lib : Libraries) (d : DataSource) : Prop where
  cid : validatePieceCID lib d.pieceCID = .ok ()
  oneSource : d.sourceCount ≤ 1
  pieces : d.format.aggregate.isSome → ∀ pieces, d.sourceAggregate = some pieces →
    ∀ p ∈ pieces, PieceChecked lib p
  urls : ∀ u ∈ d.urls, FetchAccepted lib u.url u.headers

theorem validateAggregate_checks {aggregate : FormatAggregate DataSource}
    (ok : validateAggregate lib settings d aggregate = .ok ()) {pieces : List DataSource}
    (source : d.sourceAggregate = some pieces) : ∀ p ∈ pieces, PieceChecked lib p := by
  simp only [validateAggregate, source, validatePieces, check_bind_eq_ok, forM_eq_ok] at ok
  intro p member
  exact validatePiece_checks (ok.2.2.1.2.2.2 p member)

theorem dataSource_validate (ok : d.validate lib settings = .ok ()) : d.Validated lib := by
  simp only [DataSource.validate, check_bind_eq_ok, mapError_eq_ok, rejectIf_eq_ok,
    checkSome_eq_ok] at ok
  obtain ⟨cid, sources, _, aggregated, _, _, http, _⟩ := ok
  refine ⟨cid, not_lt.mp sources, ?_, ?_⟩
  · intro present pieces source
    obtain ⟨aggregate, format⟩ := Option.isSome_iff_exists.mp present
    exact validateAggregate_checks (aggregated aggregate format) source
  · exact DataSource.urls_accepted fun urls source => validateURLs_accepts (http urls source).2

end Validated

section Insertions

variable {lib : Libraries}
variable {pieces : List DataSource} {d : DataSource} {deal : Deal} {aggregation : Int}

abbrev Fetch := Cid × HttpUrl

def ParkedPieceDownloadRef.fetch (ref : ParkedPieceDownloadRef) : Fetch :=
  (ref.pieceCIDV2, ⟨ref.url, ref.headers⟩)

def fetches (sources : List DataSource) : List Fetch :=
  sources.flatMap fun p => p.urls.map fun u => (p.pieceCID, u)

structure Stores (sources : List DataSource) (stored : Stored) : Prop where
  fetched : (stored.refs.map ParkedPieceDownloadRef.fetch).Perm (fetches sources)
  rows : stored.mk20Pipeline.map (·.pieceCidV2) ++ stored.pdpPipeline.map (·.pieceCidV2) =
    sources.map (·.pieceCID)

def Downloads.fetches (toDownload : Downloads) : List Fetch :=
  toDownload.flatMap fun entry => entry.2.map fun u => (entry.1.pieceCIDV2, u)

theorem downloads_add_fetches (key : DownloadKey) (urls : List HttpUrl) (toDownload : Downloads) :
    (toDownload.add key urls).fetches.Perm
      (toDownload.fetches ++ urls.map fun u => (key.pieceCIDV2, u)) := by
  induction toDownload with
  | nil => simp [Downloads.add, Downloads.fetches]
  | cons entry rest ih =>
    unfold Downloads.add
    split
    next same =>
      -- the new URLs go before those of the later keys
      subst same
      simp only [Downloads.fetches, flatMap_cons, map_append, append_assoc]
      exact perm_append_comm.append_left _
    next other =>
      simp only [Downloads.fetches, flatMap_cons, append_assoc]
      exact ih.append_left _

theorem collectDownloads_fetches {dealID : String} :
    ∀ {toDownload collected : Downloads},
      collectDownloads lib dealID pieces toDownload = .ok collected →
        collected.fetches.Perm (toDownload.fetches ++ fetches pieces) := by
  induction pieces with
  | nil =>
    intro toDownload collected ok
    cases ok
    simp [fetches]
  | cons piece rest ih =>
    intro toDownload collected ok
    obtain ⟨spi, _, ok⟩ := bind_eq_ok.mp ok
    cases source : piece.sourceHTTP with
    | none =>
      rw [source] at ok
      have none_fetched : fetches (piece :: rest) = fetches rest := by
        simp [fetches, DataSource.urls, source]
      rw [none_fetched]
      exact ih ok
    | some urls =>
      rw [source] at ok
      have fetched : fetches (piece :: rest) =
          (urls.map fun u => (piece.pieceCID, u)) ++ fetches rest := by
        simp [fetches, DataSource.urls, source]
      rw [fetched, ← append_assoc]
      exact (ih ok).trans ((downloads_add_fetches _ urls toDownload).append_right _)

theorem downloadRefs_fetches (product : ProductName) (toDownload : Downloads) :
    (downloadRefs product toDownload).map ParkedPieceDownloadRef.fetch = toDownload.fetches := by
  simp [downloadRefs, Downloads.fetches, map_flatMap, Function.comp_def, downloadRef,
    ParkedPieceDownloadRef.fetch]

theorem downloadRef_fetches (source : d.sourceHTTP = some urls) (product : ProductName)
    (dealID : String) (info : PieceInfo) :
    (urls.map (downloadRef product true (downloadKey dealID d.pieceCID info))).map
      ParkedPieceDownloadRef.fetch = fetches [d] := by
  simp [fetches, DataSource.urls, source, downloadRef, downloadKey,
    ParkedPieceDownloadRef.fetch]

theorem mk20AggregateRows_cids {ddo : DDOV1} {spid : Nat} :
    ∀ {index : Nat} {rows : List Mk20PipelineRow},
      mk20AggregateRows lib deal ddo spid aggregation index pieces = .ok rows →
        rows.map (·.pieceCidV2) = pieces.map (·.pieceCID) := by
  induction pieces with
  | nil =>
    intro index rows ok
    cases ok
    rfl
  | cons piece rest ih =>
    intro index rows ok
    obtain ⟨spi, _, ok⟩ := bind_eq_ok.mp ok
    obtain ⟨others, made, ok⟩ := bind_eq_ok.mp ok
    cases ok
    rw [map_cons, ih made]
    rfl

theorem pdpRow_cid {cid : Cid} {index : Nat} {row : PdpPipelineRow}
    (ok : pdpRow deal cid aggregation index = .ok row) :
    row.pieceCidV2 = cid := by
  obtain ⟨pdp, _, ok⟩ := bind_eq_ok.mp ok
  obtain ⟨dataSetID, _, ok⟩ := bind_eq_ok.mp ok
  obtain ⟨retv, _, ok⟩ := bind_eq_ok.mp ok
  cases ok
  rfl

theorem pdpAggregateRows_cids :
    ∀ {index : Nat} {rows : List PdpPipelineRow},
      pdpAggregateRows deal aggregation index pieces = .ok rows →
        rows.map (·.pieceCidV2) = pieces.map (·.pieceCID) := by
  induction pieces with
  | nil =>
    intro index rows ok
    cases ok
    rfl
  | cons piece rest ih =>
    intro index rows ok
    obtain ⟨row, first, ok⟩ := bind_eq_ok.mp ok
    obtain ⟨others, made, ok⟩ := bind_eq_ok.mp ok
    cases ok
    rw [map_cons, map_cons, ih made, pdpRow_cid first]

theorem deref_eq_ok {α : Type} {pointer : Option α} {value : α} :
    deref pointer = .ok value ↔ pointer = some value := by
  cases pointer with
  | none => simp [deref, nilPointer, panics]
  | some found => simp [deref]

theorem insertPiecesInTransaction_stores (present : deal.data = some d)
    (ok : insertPiecesInTransaction lib deal = .ok stored) :
    Stores d.inserted stored := by
  obtain ⟨ddo, _, ok⟩ := bind_eq_ok.mp ok
  obtain ⟨spid, _, ok⟩ := bind_eq_ok.mp ok
  obtain ⟨data, read, ok⟩ := bind_eq_ok.mp ok
  obtain ⟨info, _, ok⟩ := bind_eq_ok.mp ok
  cases present.symm.trans (deref_eq_ok.mp read)
  unfold DataSource.inserted
  cases http : d.sourceHTTP with
  | some urls =>
    simp only [http] at ok ⊢
    cases ok
    exact ⟨.of_eq (downloadRef_fetches http _ _ _), rfl⟩
  | none =>
    cases offline : d.sourceOffline with
    | true =>
      simp only [http, offline] at ok ⊢
      cases ok
      exact ⟨.of_eq (by simp [fetches, DataSource.urls, http]), rfl⟩
    | false =>
      cases source : d.sourceAggregate with
      | none => simp [http, offline, source, fail] at ok
      | some pieces =>
        simp only [http, offline, source] at ok ⊢
        obtain ⟨toDownload, collected, ok⟩ := bind_eq_ok.mp ok
        obtain ⟨rows, made, ok⟩ := bind_eq_ok.mp ok
        cases ok
        refine ⟨?_, ?_⟩
        · rw [downloadRefs_fetches]
          exact collectDownloads_fetches collected
        · rw [map_nil, append_nil, mk20AggregateRows_cids made]

theorem aggregate_alone (oneSource : d.sourceCount ≤ 1) (source : d.sourceAggregate = some pieces) :
    d.sourceHTTP = none ∧ d.sourceOffline = false := by
  unfold DataSource.sourceCount at oneSource
  constructor
  · cases http : d.sourceHTTP with
    | none => rfl
    | some urls => grind
  · grind

theorem insertPDPPipeline_stores (present : deal.data = some d) (oneSource : d.sourceCount ≤ 1)
    (ok : insertPDPPipeline lib deal = .ok stored) :
    Stores d.inserted stored := by
  obtain ⟨data, read, ok⟩ := bind_eq_ok.mp ok
  obtain ⟨info, _, ok⟩ := bind_eq_ok.mp ok
  cases present.symm.trans (deref_eq_ok.mp read)
  unfold DataSource.inserted
  cases http : d.sourceHTTP with
  | some urls =>
    simp only [http] at ok ⊢
    obtain ⟨row, made, ok⟩ := bind_eq_ok.mp ok
    cases ok
    refine ⟨.of_eq (downloadRef_fetches http _ _ _), ?_⟩
    rw [map_cons, pdpRow_cid made]
    rfl
  | none =>
    cases source : d.sourceAggregate with
    | none => simp [http, source, fail] at ok
    | some pieces =>
      simp only [http, source, (aggregate_alone oneSource source).2] at ok ⊢
      obtain ⟨toDownload, collected, ok⟩ := bind_eq_ok.mp ok
      obtain ⟨rows, made, ok⟩ := bind_eq_ok.mp ok
      cases ok
      refine ⟨?_, ?_⟩
      · rw [downloadRefs_fetches]
        exact collectDownloads_fetches collected
      · rw [map_nil, nil_append, pdpAggregateRows_cids made]

end Insertions

variable {lib : Libraries}
variable {sources : List DataSource} {stored : Stored}

theorem fetches_of (cid : Cid) (sources : List DataSource) :
    ((fetches sources).filter (·.1 = cid)).map Prod.snd = urlsOf cid sources := by
  induction sources with
  | nil => rfl
  | cons p rest ih =>
    have first : ((p.urls.map fun u => (p.pieceCID, u)).filter (·.1 = cid)).map Prod.snd =
        if p.pieceCID = cid then p.urls else [] := by
      by_cases same : p.pieceCID = cid <;> simp [filter_map, same]
    calc
      _ = ((p.urls.map fun u => (p.pieceCID, u)).filter (·.1 = cid)).map Prod.snd ++
          ((fetches rest).filter (·.1 = cid)).map Prod.snd := by
        grind [fetches]
      _ = (if p.pieceCID = cid then p.urls else []) ++ urlsOf cid rest := by rw [first, ih]
      _ = urlsOf cid (p :: rest) := by
        by_cases same : p.pieceCID = cid <;> simp [urlsOf, same]

section

variable (stores : Stores sources stored)
include stores

theorem Stores.refsOf_urls (cid : Cid) :
    ((stored.refsOf cid).map fun ref => ref.fetch.2).Perm (urlsOf cid sources) := by
  have selected := (stores.fetched.filter (·.1 = cid)).map Prod.snd
  rw [fetches_of, filter_map, map_map] at selected
  exact selected

theorem Stores.withinMaxima_iff :
    WithinMaxima sources ↔ ∀ cid, (stored.refsOf cid).length ≤ maxURLCount ∧
      ((stored.refsOf cid).map (·.headers.length)).sum ≤ maxHeaderCount := by
  refine forall_congr' fun cid => ?_
  have urls := stores.refsOf_urls cid
  have count : (urlsOf cid sources).length = (stored.refsOf cid).length := by
    rw [← urls.length_eq, length_map]
  have headers : ((urlsOf cid sources).map (·.headers.length)).sum =
      ((stored.refsOf cid).map (·.headers.length)).sum := by
    rw [← (urls.map (·.headers.length)).sum_eq, map_map]
    rfl
  rw [count, headers]

theorem Stores.accepted_iff :
    (∀ ref ∈ stored.refs, FetchAccepted lib ref.url ref.headers) ↔
      ∀ p ∈ sources, ∀ u ∈ p.urls, FetchAccepted lib u.url u.headers := by
  calc
    _ ↔ ∀ fetch ∈ stored.refs.map ParkedPieceDownloadRef.fetch,
        FetchAccepted lib fetch.2.url fetch.2.headers := forall_mem_map.symm
    _ ↔ ∀ fetch ∈ fetches sources, FetchAccepted lib fetch.2.url fetch.2.headers :=
      forall_congr' fun fetch => by rw [stores.fetched.mem_iff]
    _ ↔ _ := by simp only [fetches, forall_mem_flatMap, forall_mem_map]

theorem Stores.cids_iff :
    (∀ cid ∈ stored.pieceCIDs, validatePieceCID lib cid = .ok ()) ↔
      ∀ p ∈ sources, validatePieceCID lib p.pieceCID = .ok () := by
  unfold Stored.pieceCIDs
  rw [append_assoc, stores.rows, forall_mem_append, forall_mem_map, forall_mem_map]
  refine ⟨fun valid => valid.2, fun valid => ⟨?_, valid⟩⟩
  intro ref member
  have fetched := stores.fetched.mem_iff.mp (mem_map_of_mem member)
  obtain ⟨p, source, listed⟩ := mem_flatMap.mp fetched
  obtain ⟨u, _, same⟩ := mem_map.mp listed
  rw [show ref.pieceCIDV2 = p.pieceCID from congrArg Prod.fst same.symm]
  exact valid p source

theorem Stores.checked_iff :
    stored.Checked lib ↔ (∀ p ∈ sources, PieceChecked lib p) ∧ WithinMaxima sources := by
  constructor
  · intro checked
    refine ⟨fun p member => ⟨?_, ?_⟩, ?_⟩
    · exact stores.cids_iff.mp checked.cids p member
    · exact stores.accepted_iff.mp checked.urls p member
    · exact stores.withinMaxima_iff.mpr fun cid => ⟨checked.urlCount cid, checked.headerCount cid⟩
  · rintro ⟨pieces, maxima⟩
    have counts := stores.withinMaxima_iff.mp maxima
    exact ⟨stores.accepted_iff.mpr fun p member => (pieces p member).urls,
      stores.cids_iff.mpr fun p member => (pieces p member).cid,
      fun cid => (counts cid).1, fun cid => (counts cid).2⟩

end

/-- Of the data sources that are inserted, the validation checked all but the pieces of an aggregate
source under another format. -/
theorem DataSource.Validated.inserted_iff (validated : d.Validated lib) :
    (∀ p ∈ d.inserted, PieceChecked lib p) ↔
      (d.format.aggregate.isNone → ∀ pieces, d.sourceAggregate = some pieces →
        ∀ p ∈ pieces, PieceChecked lib p) := by
  have own : PieceChecked lib d := ⟨validated.cid, validated.urls⟩
  unfold DataSource.inserted
  cases source : d.sourceAggregate with
  | none => grind
  | some pieces =>
    have alone := aggregate_alone validated.oneSource source
    rw [alone.1, alone.2]
    constructor
    · grind
    · intro checked
      cases format : d.format.aggregate with
      | none => exact checked (by rw [format]; rfl) pieces rfl
      | some aggregate => exact validated.pieces (by rw [format]; rfl) pieces source

theorem deal_validate_data {settings : Settings} {deal : Deal} {auth : String}
    (accepted : deal.validate lib settings auth = .ok ()) (present : deal.data = some d) :
    d.Validated lib := by
  simp only [Deal.validate, check_bind_eq_ok, checkSome_eq_ok] at accepted
  exact dataSource_validate (accepted.2.2 d present)

/-- What is stored for an accepted deal was checked exactly where the deal leaves nothing open. -/
theorem stored_checked_iff (lib : Libraries) (settings : Settings) (deal : Deal) (auth : String)
    (d : DataSource) (stored : Stored) (accepted : deal.validate lib settings auth = .ok ())
    (present : deal.data = some d)
    (inserted : insertPiecesInTransaction lib deal = .ok stored ∨
      insertPDPPipeline lib deal = .ok stored) :
    stored.Checked lib ↔ d.Closed lib := by
  have validated := deal_validate_data accepted present
  have stores : Stores d.inserted stored := by
    cases inserted with
    | inl ddo => exact insertPiecesInTransaction_stores present ddo
    | inr pdp => exact insertPDPPipeline_stores present validated.oneSource pdp
  rw [stores.checked_iff, validated.inserted_iff]
  exact ⟨fun ⟨pieces, maxima⟩ => ⟨pieces, maxima⟩, fun closed => ⟨closed.pieces, closed.maxima⟩⟩

def sampleNet : NetLib where
  parse := fun raw => .ok ⟨"http", false, String.ofList (raw.toList.drop 7), "", ""⟩
  urlString := fun u => u.scheme ++ "://" ++ u.hostname
  resolveReference := fun u _ => .ok u
  canonicalAddr := fun u => u.hostname ++ ":80"
  splitHostPort := fun addr => .ok (addr, "80")

def sampleLibraries : Libraries where
  net := sampleNet
  globalSSRFOverride := none
  decodeString := fun text => .ok (text.toList.map fun c => UInt8.ofNat c.toNat)
  newFromBytes := fun bytes => .ok bytes
  newFromString := fun text => .ok (text.toList.map fun c => UInt8.ofNat c.toNat)
  addressString := fun _ => "f1client"
  idFromAddress := fun _ => .ok 1000
  isHexAddress := fun _ => true
  codec := fun _ => rawCodec
  pieceCidV1FromV2 := fun c => .ok (c, 127)
  paddedSize := fun rawSize => rawSize + 1

def sampleSettings : Settings where
  dataSourceEnabled := fun _ => .ok (some true)
  productEnabled := fun _ => .ok (some true)
  pdpKeyExists := .ok true
  dataSetExists := fun _ => .ok true
  piecesExist := fun _ _ => .ok true
  disabledMiners := []

def httpPiece (cid : Cid) (url : String) : DataSource :=
  ⟨cid, ⟨false, none, true⟩, some [⟨url, []⟩], none, false, false⟩

def sampleDeal (data : DataSource) : Deal where
  identifier := "01"
  client := "f1client"
  data := some data
  products := ⟨some ⟨[0], none, 518400, none, "", [], none⟩, some ⟨false, false, false⟩, none⟩

def sampleAuth : String := "CurioAuth bls:k:s"

def insertedRows (data : DataSource) : Stored :=
  match insertPiecesInTransaction sampleLibraries (sampleDeal data) with
  | .ok stored => stored
  | .error _ => ⟨[], [], []⟩

def openAggregate : DataSource :=
  ⟨[7], ⟨false, some ⟨1, []⟩, false⟩, none,
    some [httpPiece [8] "http://example.org", httpPiece [9] "http://example.net"], false, false⟩

theorem openAggregate_closed : openAggregate.Closed sampleLibraries where
  pieces := fun plain => nomatch plain
  maxima := by
    intro cid
    by_cases first : [8] = cid
    · subst first
      decide
    · by_cases second : [9] = cid
      · subst second
        decide
      · simp [urlsOf, openAggregate, DataSource.inserted, httpPiece, first, second]

theorem stored_checked_openAggregate :
    (insertedRows openAggregate).refs.length = 2 ∧
      (insertedRows openAggregate).Checked sampleLibraries :=
  ⟨rfl, (stored_checked_iff sampleLibraries sampleSettings (sampleDeal openAggregate) sampleAuth
    openAggregate (insertedRows openAggregate) rfl rfl (.inl rfl)).mpr openAggregate_closed⟩

def hiddenAggregate : DataSource :=
  ⟨[7], ⟨false, none, true⟩, none, some [httpPiece [8] "http://127.0.0.1"], false, false⟩

/-- The deal is accepted and a URL of the provider itself is stored for download. -/
theorem hidden_piece_unchecked :
    (sampleDeal hiddenAggregate).validate sampleLibraries sampleSettings sampleAuth = .ok () ∧
      insertPiecesInTransaction sampleLibraries (sampleDeal hiddenAggregate) =
        .ok (insertedRows hiddenAggregate) ∧
      ((insertedRows hiddenAggregate).refs.map fun ref => ref.url) = ["http://127.0.0.1"] ∧
      ¬(insertedRows hiddenAggregate).Checked sampleLibraries := by
  refine ⟨rfl, rfl, rfl, fun checked => ?_⟩
  obtain ⟨parsed, accepted⟩ := checked.urls _ (mem_singleton_self _)
  have refused : validateClientFetchURL sampleNet "http://127.0.0.1" [] sampleLibraries.fetchPolicy =
      fail "non-public ip 127.0.0.1 is not allowed" := rfl
  exact absurd (refused.symm.trans accepted) (by simp [fail])

end Curio.Mk20
