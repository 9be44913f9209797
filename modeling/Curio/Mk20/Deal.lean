import Curio.RobustHttp.Ssrf

/-! Mk20 deals: `Deal.Validate` of `market/mk20/utils.go`, and what `insertPiecesInTransaction` of
`tasks/storage-market/mk20.go` and `insertPDPPipeline` of `market/mk20/mk20.go` store.

A CID stands for its text. Statements of the database that are not a condition on what they find
succeed; what a failed insertion wrote is rolled back. -/

namespace Curio.Mk20

open GoRuntime RobustHttp

abbrev Cid := Bytes

abbrev Address := Bytes

/-- The codes of a refused deal; `http.StatusBadRequest` and `http.StatusInternalServerError` are
the numbers of `ErrBadProposal` and `ErrServerInternalError`. -/
inductive DealCode where
  | errBadProposal
  | errMalformedDataSource
  | errUnsupportedDataSource
  | errUnsupportedProduct
  | errProductNotEnabled
  | errProductValidationFailed
  | errServerInternalError
  | errServiceMaintenance
  | errDurationTooShort
  deriving DecidableEq

abbrev Validation := Except (DealCode × String) Unit

inductive DataSourceName where
  | http
  | aggregate
  | offline
  | put
  deriving DecidableEq

def DataSourceName.text : DataSourceName → String
  | .http => "http"
  | .aggregate => "aggregate"
  | .offline => "offline"
  | .put => "put"

inductive ProductName where
  | ddoV1
  | pdpV1
  | retrievalV1
  deriving DecidableEq

def ProductName.text : ProductName → String
  | .ddoV1 => "ddo_v1"
  | .pdpV1 => "pdp_v1"
  | .retrievalV1 => "retrieval_v1"

structure HttpUrl where
  url : String
  headers : Header
  deriving DecidableEq

structure FormatAggregate (Source : Type) where
  type : Int
  sub : List Source

structure PieceDataFormat (Source : Type) where
  car : Bool
  aggregate : Option (FormatAggregate Source)
  raw : Bool

structure DataSource where
  pieceCID : Cid
  format : PieceDataFormat DataSource
  sourceHTTP : Option (List HttpUrl)
  sourceAggregate : Option (List DataSource)
  sourceOffline : Bool
  sourceHttpPut : Bool

structure DDOV1 where
  provider : Address
  startEpoch : Option Int
  duration : Int
  allocationId : Option Nat
  marketAddress : String
  notificationAddress : Address
  notificationPayload : Option Bytes

structure RetrievalV1 where
  indexing : Bool
  announcePayload : Bool
  announcePiece : Bool

structure PDPV1 where
  createDataSet : Bool
  deleteDataSet : Bool
  addPiece : Bool
  deletePiece : Bool
  dataSetID : Option Nat
  recordKeeper : String
  pieceIDs : List Nat
  extraData : Bytes

structure Products where
  ddoV1 : Option DDOV1
  retrievalV1 : Option RetrievalV1
  pdpV1 : Option PDPV1

structure Deal where
  identifier : String
  client : String
  data : Option DataSource
  products : Products

structure Libraries where
  net : NetLib
  globalSSRFOverride : Option SSRFPolicy
  decodeString : String → Call Bytes
  newFromBytes : Bytes → Call Address
  newFromString : String → Call Address
  addressString : Address → String
  idFromAddress : Address → Call Nat
  isHexAddress : String → Bool
  codec : Cid → Nat
  pieceCidV1FromV2 : Cid → Call (Cid × Nat)
  paddedSize : Nat → Nat

structure Settings where
  dataSourceEnabled : DataSourceName → Call (Option Bool)
  productEnabled : ProductName → Call (Option Bool)
  pdpKeyExists : Call Bool
  dataSetExists : Nat → Call Bool
  piecesExist : Nat → List Nat → Call Bool
  disabledMiners : List String

def maxAggregateLength : Nat := 1024
def maxURLCount : Nat := 10
def maxHeaderCount : Nat := 10

def aggregateTypeV1 : Int := 1

def rawCodec : Nat := 0x55

section DataChecks

variable (lib : Libraries) (settings : Settings)

def validatePieceCID (c : Cid) : Call Unit := do
  rejectIf (c = []) "piece cid is not defined"
  rejectIf (lib.codec c ≠ rawCodec) "piece cid is not raw"
  match lib.pieceCidV1FromV2 c with
  | .error err => .error ("invalid piece cid: " ++ err)
  | .ok (_, rawSize) => rejectIf (rawSize = 0) "payload size is 0"

def Libraries.fetchPolicy : SSRFPolicy := withSSRFDefaults lib.globalSSRFOverride none

def HttpUrl.validate (h : HttpUrl) : Validation :=
  match validateClientFetchURL lib.net h.url h.headers lib.fetchPolicy with
  | .ok _ => .ok ()
  | .error fault =>
    .error (.errBadProposal, "invalid url: " ++
      -- the check of a URL neither panics nor hangs
      match fault with
      | .error message => message
      | .panic message => message
      | .hang => "")

def validateURLs (urls : List HttpUrl) (noURLs : String) : Validation := do
  rejectIf (urls.length = 0) (.errMalformedDataSource, noURLs)
  rejectIf (maxURLCount < urls.length)
    (.errMalformedDataSource, s!"maximum {maxURLCount} URLs are supported per piece")
  forM urls fun u => do
    u.validate lib
    rejectIf (maxHeaderCount < u.headers.length)
      (.errMalformedDataSource, s!"maximum {maxHeaderCount} headers are supported per piece")

def isDataSourceEnabled (name : DataSourceName) : Validation :=
  match settings.dataSourceEnabled name with
  | .error err =>
    .error (.errServerInternalError, s!"failed to query data source {name.text}: {err}")
  | .ok none =>
    .error (.errUnsupportedDataSource,
      s!"data source {name.text} is not supported by the provider")
  | .ok (some enabled) =>
    rejectIf (enabled = false)
      (.errUnsupportedDataSource, s!"data source {name.text} is not enabled")

def validateSubFormat (p : DataSource) : Validation := do
  (validatePieceCID lib p.pieceCID).mapError fun _ => (.errMalformedDataSource, "invalid piece cid")
  rejectIf p.format.aggregate.isSome
    (.errMalformedDataSource, "aggregate of aggregate is not supported")
  rejectIf (p.format.car = false ∧ p.format.raw = false)
    (.errMalformedDataSource, "no format defined for sub piece in aggregate")
  rejectIf (p.format.car = true ∧ p.format.raw = true)
    (.errMalformedDataSource, "multiple formats defined for sub piece in aggregate")

def validatePiece (p : DataSource) : Validation := do
  validateSubFormat lib p
  rejectIf p.sourceAggregate.isSome
    (.errMalformedDataSource, "aggregate of aggregate is not supported")
  rejectIf (p.sourceOffline = false ∧ p.sourceHTTP = none)
    (.errMalformedDataSource, "no source defined for sub piece in aggregate")
  rejectIf (p.sourceOffline = true ∧ p.sourceHTTP ≠ none)
    (.errMalformedDataSource, "multiple sources defined for sub piece in aggregate")
  checkSome p.sourceHTTP fun urls =>
    validateURLs lib urls "no urls defined for sub piece in aggregate"

def validateSub (p : DataSource) : Validation := do
  validateSubFormat lib p
  rejectIf (p.sourceAggregate.isSome ∨ p.sourceOffline = true ∨ p.sourceHTTP ≠ none ∨
      p.sourceHttpPut = true)
    (.errMalformedDataSource, "sub piece of pre-aggregated piece cannot have source defined")

def validatePieces (pieces : List DataSource) : Validation := do
  rejectIf (pieces.length = 0) (.errMalformedDataSource, "no pieces in aggregate")
  rejectIf (pieces.length = 1) (.errMalformedDataSource, "aggregate must have at least 2 pieces")
  rejectIf (maxAggregateLength < pieces.length)
    (.errMalformedDataSource, s!"aggregate support a maximum of {maxAggregateLength} pieces")
  forM pieces (validatePiece lib)

def validateAggregate (d : DataSource) (aggregate : FormatAggregate DataSource) : Validation := do
  rejectIf (aggregate.type ≠ aggregateTypeV1)
    (.errMalformedDataSource, "aggregate type not supported")
  match d.sourceAggregate with
  | some pieces => do
      isDataSourceEnabled settings .aggregate
      validatePieces lib pieces
      rejectIf (0 < aggregate.sub.length)
        (.errMalformedDataSource, "sub pieces cannot be defined when dataSource is aggregate")
  | none => do
      rejectIf (aggregate.sub.length = 0)
        (.errMalformedDataSource, "no sub pieces defined under aggregate")
      rejectIf (maxAggregateLength < aggregate.sub.length)
        (.errMalformedDataSource, s!"aggregate support a maximum of {maxAggregateLength} pieces")
      forM aggregate.sub (validateSub lib)

def DataSource.sourceCount (d : DataSource) : Nat :=
  (if d.sourceHTTP.isSome then 1 else 0) + (if d.sourceOffline then 1 else 0) +
    (if d.sourceAggregate.isSome then 1 else 0) + (if d.sourceHttpPut then 1 else 0)

def DataSource.validate (d : DataSource) : Validation := do
  (validatePieceCID lib d.pieceCID).mapError fun err => (.errBadProposal, err)
  rejectIf (1 < d.sourceCount) (.errBadProposal, "multiple sources defined for data source")
  rejectIf (d.sourceOffline = false ∧ d.sourceHTTP.isNone ∧ d.sourceAggregate.isNone ∧
      d.sourceHttpPut = false)
    (.errBadProposal, "no source defined for data source")
  -- the pieces of an aggregate are looked at under the aggregate format only
  checkSome d.format.aggregate fun aggregate => validateAggregate lib settings d aggregate
  let fcar := d.format.car
  let fagg := d.format.aggregate.isSome
  let fraw := d.format.raw
  rejectIf (fcar = false ∧ fagg = false ∧ fraw = false) (.errBadProposal, "no format defined")
  rejectIf (fcar = true ∧ fagg = true ∨ fcar = true ∧ fraw = true ∨ fagg = true ∧ fraw = true)
    (.errBadProposal, "multiple formats defined")
  checkSome d.sourceHTTP fun urls => do
    isDataSourceEnabled settings .http
    validateURLs lib urls "no urls defined"
  checkWhen d.sourceOffline (isDataSourceEnabled settings .offline)
  checkWhen d.sourceHttpPut (isDataSourceEnabled settings .put)

end DataChecks

section ProductChecks

variable (lib : Libraries) (settings : Settings)

def isProductEnabled (name : ProductName) : Validation :=
  match settings.productEnabled name with
  | .error err => .error (.errServerInternalError, s!"failed to query product {name.text}: {err}")
  | .ok none =>
    .error (.errUnsupportedProduct, s!"product {name.text} is not supported by the provider")
  | .ok (some enabled) =>
    rejectIf (enabled = false) (.errProductNotEnabled, s!"product {name.text} is not enabled")

def parseMiners : List String → Except (DealCode × String) (List Address)
  | [] => .ok []
  | m :: rest =>
    match lib.newFromString m with
    | .error err => .error (.errServerInternalError, "failed to parse miner string: " ++ err)
    | .ok maddr => do
        let miners ← parseMiners rest
        .ok (maddr :: miners)

def DDOV1.validateMarket (d : DDOV1) : Validation := do
  rejectIf (d.marketAddress ≠ "" ∧ d.marketAddress.utf8ByteSize < 2)
    (.errProductValidationFailed, "market address too short")
  rejectIf (d.marketAddress ≠ "" ∧ d.marketAddress.toList.take 2 ≠ ['0', 'x'])
    (.errProductValidationFailed, "market address must start with 0x")
  rejectIf (d.marketAddress ≠ "" ∧ lib.isHexAddress d.marketAddress = false)
    (.errProductValidationFailed, "invalid market address")
  rejectIf (d.notificationAddress = [] ∧ d.notificationPayload ≠ none)
    (.errProductValidationFailed, "notification payload cannot be set without notification address")
  rejectIf (d.notificationAddress ≠ [] ∧ d.notificationPayload = none)
    (.errProductValidationFailed, "notification payload is not set")

def DDOV1.validate (d : DDOV1) : Validation := do
  isProductEnabled settings .ddoV1
  rejectIf (d.provider = []) (.errProductValidationFailed, "provider address is not set")
  let mk20disabledMiners ← parseMiners lib settings.disabledMiners
  rejectIf (∃ epoch ∈ d.startEpoch, epoch ≤ 0)
    (.errProductValidationFailed, "start epoch cannot be negative")
  rejectIf (d.provider ∈ mk20disabledMiners) (.errProductValidationFailed, "provider is disabled")
  rejectIf (d.allocationId = some 0) (.errProductValidationFailed, "incorrect allocation id")
  rejectIf (d.allocationId = none ∧ d.duration < 518400)
    (.errDurationTooShort, "duration must be at least 518400")
  d.validateMarket lib

def RetrievalV1.validate (r : RetrievalV1) : Validation := do
  isProductEnabled settings .retrievalV1
  rejectIf (r.indexing = false ∧ r.announcePayload = true)
    (.errProductValidationFailed, "deal cannot be announced to IPNI without indexing")

def maxCreateDataSetExtraDataSize : Nat := 4096
def maxAddPiecesExtraDataSize : Nat := 8192
def maxDeletePieceExtraDataSize : Nat := 256
def maxPieceLimit : Nat := 1024

def requireRow (found : Call Bool) (failed missing : DealCode × String) : Validation :=
  match found with
  | .error err => .error (failed.1, failed.2 ++ ": " ++ err)
  | .ok present => rejectIf (present = false) missing

def PDPV1.validateCreate (p : PDPV1) : Validation := do
  rejectIf p.dataSetID.isSome (.errBadProposal, "create_proof_set cannot be set with data_set_id")
  rejectIf (p.recordKeeper = "")
    (.errBadProposal, "record_keeper must be defined for create_proof_set")
  rejectIf (lib.isHexAddress p.recordKeeper = false)
    (.errBadProposal, "record_keeper must be a valid address")
  rejectIf (maxCreateDataSetExtraDataSize < p.extraData.length)
    (.errBadProposal,
      s!"extra_data cannot be larger than {maxCreateDataSetExtraDataSize} bytes")
  rejectIf (p.extraData.length = 0)
    (.errBadProposal, "extra_data must be defined for create_proof_set")

def PDPV1.validateDeleteSet (p : PDPV1) : Validation :=
  match p.dataSetID with
  | none => .error (.errBadProposal, "delete_proof_set must have data_set_id defined")
  | some pid => do
      requireRow (settings.dataSetExists pid)
        (.errServerInternalError, "checking if dataset exists")
        (.errBadProposal, "dataset does not exist for the client")
      rejectIf (0 < p.extraData.length)
        (.errBadProposal, "extra_data cannot be defined for delete_proof_set")

def PDPV1.validateAdd (p : PDPV1) : Validation :=
  match p.dataSetID with
  | none => .error (.errBadProposal, "add_piece must have data_set_id defined")
  | some pid => do
      requireRow (settings.dataSetExists pid)
        (.errServerInternalError, "checking if dataset exists")
        (.errBadProposal, "dataset does not exist for the client")
      rejectIf (maxAddPiecesExtraDataSize < p.extraData.length)
        (.errBadProposal, s!"extra_data cannot be larger than {maxAddPiecesExtraDataSize} bytes")
      rejectIf (p.extraData.length = 0)
        (.errBadProposal, "extra_data must be defined for add_piece")
      rejectIf (maxPieceLimit < p.pieceIDs.length)
        (.errBadProposal, s!"piece_ids cannot be larger than {maxPieceLimit} pieces")

def PDPV1.validateDeletePiece (p : PDPV1) : Validation :=
  match p.dataSetID with
  | none => .error (.errBadProposal, "delete_piece must have data_set_id defined")
  | some pid => do
      rejectIf (p.pieceIDs.length = 0)
        (.errBadProposal, "piece_ids must be defined for delete_proof_set")
      requireRow (settings.piecesExist pid p.pieceIDs)
        (.errServerInternalError, "checking if dataset and pieces exists")
        (.errBadProposal, "dataset or one of the pieces does not exist for the client")
      rejectIf (maxDeletePieceExtraDataSize < p.extraData.length)
        (.errBadProposal, s!"extra_data cannot be larger than {maxDeletePieceExtraDataSize} bytes")
      rejectIf (p.extraData.length = 0)
        (.errBadProposal, "extra_data must be defined for delete_proof_set")

def PDPV1.validate (p : PDPV1) : Validation := do
  isProductEnabled settings .pdpV1
  rejectIf (¬(p.createDataSet ∨ p.deleteDataSet ∨ p.addPiece ∨ p.deletePiece))
    (.errBadProposal, "deal must have one of the following flags set: create_data_set, " ++
      "delete_data_set, add_piece, delete_piece")
  requireRow settings.pdpKeyExists (.errServerInternalError, "checking if pdp address exists")
    (.errServiceMaintenance, "pdp key not configured by storage provider")
  checkWhen p.createDataSet (p.validateCreate lib)
  rejectIf (1 < p.createDataSet.toNat + p.deleteDataSet.toNat + p.addPiece.toNat +
      p.deletePiece.toNat)
    (.errBadProposal, "only one action is allowed per deal")
  checkWhen p.deleteDataSet (p.validateDeleteSet settings)
  checkWhen p.addPiece (p.validateAdd settings)
  checkWhen p.deletePiece (p.validateDeletePiece settings)

def Products.validateDDO (d : Products) (ddo : DDOV1) : Validation := do
  ddo.validate lib settings
  match d.retrievalV1 with
  | none => .error (.errProductValidationFailed, "retrieval v1 is required for ddo v1")
  | some retrieval =>
    rejectIf retrieval.announcePiece
      (.errProductValidationFailed, "announce piece is not supported for ddo v1")

def Products.validate (d : Products) : Validation := do
  checkSome d.ddoV1 fun ddo => d.validateDDO lib settings ddo
  checkSome d.retrievalV1 fun retrieval => retrieval.validate settings
  checkSome d.pdpV1 fun pdp => pdp.validate lib settings
  rejectIf (d.ddoV1.isNone ∧ d.pdpV1.isNone)
    (.errProductValidationFailed, "no products defined")
  rejectIf (d.ddoV1.isSome ∧ d.pdpV1.isSome)
    (.errProductValidationFailed, "ddo_v1 and pdp_v1 are mutually exclusive")

end ProductChecks

section DealChecks

variable (lib : Libraries) (settings : Settings)

/-- The text before and after the first separator. -/
def cut (separator : Char) : List Char → Option (List Char × List Char)
  | [] => none
  | c :: rest =>
    if c = separator then some ([], rest)
    else (cut separator rest).map fun parts => (c :: parts.1, parts.2)

def authScheme : List Char := "CurioAuth ".toList

def decodeNonEmpty (part : List Char) (badText empty : String) : Call Bytes :=
  match lib.decodeString (String.ofList part) with
  | .error err => .error (badText ++ ": " ++ err)
  | .ok bytes => if bytes.length = 0 then .error empty else .ok bytes

def parseCustomAuth (header : String) : Call (String × Bytes × Bytes) :=
  if ¬authScheme.isPrefixOf header.toList then .error "missing CustomAuth prefix"
  else
    match cut ':' (header.toList.drop authScheme.length) with
    | none => .error "invalid auth format"
    | some (keyType, others) =>
      match cut ':' others with
      | none => .error "invalid auth format"
      | some (key, signature) => do
          let pubKey ← decodeNonEmpty lib key "invalid pubkey base64" "invalid pubkey"
          let sig ← decodeNonEmpty lib signature "invalid signature base64" "invalid signature"
          .ok (String.ofList keyType, pubKey, sig)

def validateClient (client auth : String) : Call Unit := do
  rejectIf (client = "") "client is empty"
  match parseCustomAuth lib auth with
  | .error err => .error ("parsing auth header: " ++ err)
  | .ok (keyType, pubKey, _) =>
    if keyType = "secp256k1" ∨ keyType = "bls" ∨ keyType = "delegated" then
      match lib.newFromBytes pubKey with
      | .error err => .error ("invalid public key for auth header: " ++ err)
      | .ok addr =>
        rejectIf (client ≠ lib.addressString addr)
          "client in deal does not match client in auth header"
    else .error ("unsupported key type: " ++ keyType)

/-- A deal without data is one whose data is put later, or one that deletes. -/
def Deal.validate (d : Deal) (auth : String) : Validation := do
  (validateClient lib d.client auth).mapError fun err => (.errBadProposal, err)
  (d.products.validate lib settings).mapError fun refusal =>
    (refusal.1, "products validation failed: " ++ refusal.2)
  checkSome d.data fun data => data.validate lib settings

end DealChecks

variable (lib : Libraries)

structure PieceInfo where
  pieceCIDV1 : Cid
  size : Nat
  rawSize : Nat
  deriving DecidableEq

def getPieceInfo (c : Cid) : Go PieceInfo :=
  match lib.pieceCidV1FromV2 c with
  | .error err => fail ("invalid piece cid: " ++ err)
  | .ok (pieceCid, rawSize) => .ok ⟨pieceCid, lib.paddedSize rawSize, rawSize⟩

/-- One row of `parked_piece_refs`, with the row of `market_mk20_download_pipeline` that lists it
and the parked piece that it is for. -/
structure ParkedPieceDownloadRef where
  id : String
  product : ProductName
  pieceCIDV2 : Cid
  pieceCID : Cid
  paddedSize : Nat
  rawSize : Nat
  url : String
  headers : Header
  longTerm : Bool
  deriving DecidableEq

structure Mk20PipelineRow where
  id : String
  spId : Nat
  contract : String
  client : String
  pieceCidV2 : Cid
  pieceCid : Cid
  pieceSize : Nat
  rawSize : Nat
  offline : Bool
  indexing : Bool
  announce : Bool
  allocationId : Option Nat
  duration : Int
  pieceAggregation : Int
  dealAggregation : Int
  aggrIndex : Nat
  started : Bool
  deriving DecidableEq

structure PdpPipelineRow where
  id : String
  client : String
  pieceCidV2 : Cid
  dataSetId : Nat
  extraData : Bytes
  dealAggregation : Int
  aggrIndex : Nat
  indexing : Bool
  announce : Bool
  announcePayload : Bool
  deriving DecidableEq

structure Stored where
  refs : List ParkedPieceDownloadRef
  mk20Pipeline : List Mk20PipelineRow
  pdpPipeline : List PdpPipelineRow
  deriving DecidableEq

structure DownloadKey where
  id : String
  pieceCIDV2 : Cid
  pieceCID : Cid
  size : Nat
  rawSize : Nat
  deriving DecidableEq

def downloadKey (dealID : String) (cid : Cid) (info : PieceInfo) : DownloadKey :=
  ⟨dealID, cid, info.pieceCIDV1, info.size, info.rawSize⟩

abbrev Downloads := List (DownloadKey × List HttpUrl)

/-- `toDownload[key] = append(toDownload[key], urls...)`, in the order in which the keys came. -/
def Downloads.add (key : DownloadKey) (urls : List HttpUrl) : Downloads → Downloads
  | [] => [(key, urls)]
  | entry :: rest =>
    if entry.1 = key then (key, entry.2 ++ urls) :: rest else entry :: Downloads.add key urls rest

def collectDownloads (dealID : String) : List DataSource → Downloads → Go Downloads
  | [], toDownload => .ok toDownload
  | piece :: rest, toDownload => do
      let spi ← wrap "getting piece info" (getPieceInfo lib piece.pieceCID)
      match piece.sourceHTTP with
      | some urls =>
        collectDownloads dealID rest (toDownload.add (downloadKey dealID piece.pieceCID spi) urls)
      | none => collectDownloads dealID rest toDownload

def downloadRef (product : ProductName) (longTerm : Bool) (k : DownloadKey) (src : HttpUrl) :
    ParkedPieceDownloadRef where
  id := k.id
  product := product
  pieceCIDV2 := k.pieceCIDV2
  pieceCID := k.pieceCID
  paddedSize := k.size
  rawSize := k.rawSize
  url := src.url
  headers := src.headers
  longTerm := longTerm

def downloadRefs (product : ProductName) (toDownload : Downloads) : List ParkedPieceDownloadRef :=
  toDownload.flatMap fun entry => entry.2.map (downloadRef product false entry.1)

def DataSource.aggregation (data : DataSource) : Int :=
  match data.format.aggregate with
  | some aggregate => aggregate.type
  | none => 0

def nilPointer {α : Type} : Go α := panics "invalid memory address or nil pointer dereference"

def deref {α : Type} : Option α → Go α
  | some value => .ok value
  | none => nilPointer

/-- The row of a piece; `index` and the aggregation of the deal are of a piece of an aggregate. -/
def mk20Row (deal : Deal) (ddo : DDOV1) (spid : Nat) (cid : Cid) (info : PieceInfo)
    (pieceAggregation dealAggregation : Int) (index : Nat) (offline started : Bool) :
    Mk20PipelineRow where
  id := deal.identifier
  spId := spid
  contract := ddo.marketAddress
  client := deal.client
  pieceCidV2 := cid
  pieceCid := info.pieceCIDV1
  pieceSize := info.size
  rawSize := info.rawSize
  offline := offline
  indexing := (deal.products.retrievalV1.map (·.indexing)).getD false
  announce := (deal.products.retrievalV1.map (·.announcePayload)).getD false
  allocationId := ddo.allocationId
  duration := ddo.duration
  pieceAggregation := pieceAggregation
  dealAggregation := dealAggregation
  aggrIndex := index
  started := started

def mk20AggregateRows (deal : Deal) (ddo : DDOV1) (spid : Nat) (aggregation : Int) :
    Nat → List DataSource → Go (List Mk20PipelineRow)
  | _, [] => .ok []
  | i, piece :: rest => do
      let spi ← wrap "getting piece info" (getPieceInfo lib piece.pieceCID)
      let rows ← mk20AggregateRows deal ddo spid aggregation (i + 1) rest
      .ok (mk20Row deal ddo spid piece.pieceCID spi 0 aggregation i piece.sourceOffline
        (!piece.sourceOffline) :: rows)

def insertPiecesInTransaction (deal : Deal) : Go Stored := do
  let ddo ← deref deal.products.ddoV1
  let spid ← wrap "getting provider ID" (ofCall (lib.idFromAddress ddo.provider))
  let data ← deref deal.data
  let pi ← wrap "getting piece info" (getPieceInfo lib data.pieceCID)
  match data.sourceHTTP with
  | some urls =>
    let key := downloadKey deal.identifier data.pieceCID pi
    .ok ⟨urls.map (downloadRef .ddoV1 true key),
      [mk20Row deal ddo spid data.pieceCID pi data.aggregation 0 0 false true], []⟩
  | none =>
    if data.sourceOffline then
      .ok ⟨[], [mk20Row deal ddo spid data.pieceCID pi data.aggregation 0 0 true false], []⟩
    else
      match data.sourceAggregate with
      | some pieces => do
          let toDownload ← collectDownloads lib deal.identifier pieces []
          let rows ← mk20AggregateRows lib deal ddo spid data.aggregation 0 pieces
          .ok ⟨downloadRefs .ddoV1 toDownload, rows, []⟩
      | none => fail "unknown data source type"

def pdpRow (deal : Deal) (cid : Cid) (aggregation : Int) (index : Nat) : Go PdpPipelineRow := do
  let pdp ← deref deal.products.pdpV1
  let dataSetID ← deref pdp.dataSetID
  let retv ← deref deal.products.retrievalV1
  .ok ⟨deal.identifier, deal.client, cid, dataSetID, pdp.extraData, aggregation, index,
    retv.indexing, retv.announcePiece, retv.announcePayload⟩

def pdpAggregateRows (deal : Deal) (aggregation : Int) :
    Nat → List DataSource → Go (List PdpPipelineRow)
  | _, [] => .ok []
  | i, piece :: rest => do
      let row ← pdpRow deal piece.pieceCID aggregation i
      let rows ← pdpAggregateRows deal aggregation (i + 1) rest
      .ok (row :: rows)

def insertPDPPipeline (deal : Deal) : Go Stored := do
  let data ← deref deal.data
  let pi ← wrap "getting piece info" (getPieceInfo lib data.pieceCID)
  match data.sourceHTTP with
  | some urls => do
      let key := downloadKey deal.identifier data.pieceCID pi
      let row ← pdpRow deal data.pieceCID data.aggregation 0
      .ok ⟨urls.map (downloadRef .pdpV1 true key), [], [row]⟩
  | none =>
    match data.sourceAggregate with
    | some pieces => do
        let toDownload ← collectDownloads lib deal.identifier pieces []
        let rows ← pdpAggregateRows deal data.aggregation 0 pieces
        .ok ⟨downloadRefs .pdpV1 toDownload, [], rows⟩
    | none => fail "unknown data source type"

end Curio.Mk20
