import Mathlib
import OpenSquilla.Shared.Dict
import OpenSquilla.Shared.RaisingRuns
import OpenSquilla.Shared.TextScan

set_option autoImplicit false

-- A record lives in a directory named by a token of its session id and by its handle, which is
-- derived from the content. The directory holds the metadata and one content file.

namespace OpenSquilla.Snapshots

open RaisingRuns TextLines TextScan

structure HexDigest where
  text : Text
  length_text : text.length = 64
  isHex : ∀ c ∈ text, isHexDigit c = true
  deriving DecidableEq

structure Libraries where
  hexdigest : ByteArray → HexDigest
  -- the header of what is compressed names the time
  compress : Int → ByteArray → ByteArray
  decompress : ByteArray → Option ByteArray
  decompress_compress : ∀ time payload, decompress (compress time payload) = some payload
  compress_nonempty : ∀ time payload, 0 < (compress time payload).size

def handleMark : Text := "tr-".toList

def contentHandleHex : Nat := 32

structure Handle where
  suffix : Text
  length_suffix : suffix.length = contentHandleHex
  isHex : ∀ c ∈ suffix, isHexDigit c = true
  deriving DecidableEq

def Handle.text (handle : Handle) : Text := handleMark ++ handle.suffix

def HexDigest.primaryHandle (digest : HexDigest) : Handle where
  suffix := digest.text.take contentHandleHex
  length_suffix := by
    rw [List.length_take, digest.length_text]
    decide
  isHex := fun c mem => digest.isHex c (List.mem_of_mem_take mem)

inductive StorageEncoding
  | utf8
  | gzip

inductive ContentName
  | plain
  | compressed
  deriving DecidableEq

inductive StoreError
  | required (name : Text)
  | snapshotEmpty
  | exceedsPerResultBudget (stored raw : Nat) (max : Int)
  | exceedsDiskBudget (current incoming budget : Nat)
  | handleInvalid
  | noUniqueHandle
  -- the instant before which records expire is no datetime
  | cutoffOutOfRange
  | missingFile
  | notCompressed
  | notUtf8
  | sessionMismatch
  | hashMismatch
  | sizeMismatch

def StoreError.IsBudgetError : StoreError → Prop
  | .snapshotEmpty | .exceedsPerResultBudget .. | .exceedsDiskBudget .. => True
  | _ => False

structure ToolResultRecord where
  handle : Handle
  toolUseId : Text
  toolName : Text
  sessionId : Text
  sessionKey : Text
  agentId : Text
  sha256 : HexDigest
  chars : Nat
  sizeBytes : Nat
  createdAt : Int
  content : String
  storedSizeBytes : Nat
  storageEncoding : StorageEncoding

structure SnapshotMeta where
  handle : Handle
  toolUseId : Text
  toolName : Text
  sessionId : Text
  sessionKey : Text
  agentId : Text
  sha256 : HexDigest
  chars : Nat
  sizeBytes : Nat
  storedSizeBytes : Nat
  storageEncoding : StorageEncoding
  contentFile : ContentName
  createdAt : Int

structure ContentFile where
  name : ContentName
  bytes : ByteArray
  modifiedAt : Int

structure RecordFiles where
  metadata : SnapshotMeta
  content : ContentFile

structure RecordDir where
  token : Text
  handle : Handle
  deriving DecidableEq

abbrev ToolResultStore := Dict RecordDir RecordFiles

structure StoredMeta where
  createdAt : Int
  sizeBytes : Nat
  recordDir : RecordDir

def isTokenChar (c : Char) : Bool := c.isAlphanum || c = '.' || c = '_' || c = '-'

def dashRuns (inRun : Bool) : Text → Text
  | [] => []
  | c :: rest =>
    if isTokenChar c then c :: dashRuns false rest
    else if inRun then dashRuns true rest
    else '-' :: dashRuns true rest

def isTokenEdge (c : Char) : Bool := c = '.' || c = '-'

def safeToken (value : Text) : Text :=
  let token := ((dashRuns false (strip value)).dropWhile isTokenEdge).rdropWhile isTokenEdge
  if token.take 80 = [] then "session".toList else token.take 80

def validateNonEmpty (name value : Text) : Except StoreError Text :=
  if strip value = [] then .error (.required name) else .ok (strip value)

def validateHandle (value : Text) : Except StoreError Handle :=
  if valid : handleMark.isPrefixOf value ∧ (value.drop 3).length = contentHandleHex ∧
      ∀ c ∈ value.drop 3, isHexDigit c = true then
    .ok ⟨value.drop 3, valid.2.1, valid.2.2⟩
  else .error .handleInvalid

def recordDir (handle : Handle) (sessionId : Text) : RecordDir := ⟨safeToken sessionId, handle⟩

-- The order in which a walk over the directories comes upon the records.
structure ScanOrder where
  arrange : List StoredMeta → List StoredMeta
  perm : ∀ records, (arrange records).Perm records

structure WriteRequest where
  content : String
  toolUseId : Text
  toolName : Text
  sessionId : Text
  sessionKey : Text
  agentId : Text
  maxBytes : Option Int
  diskBudgetBytes : Option Int
  retentionSeconds : Option Int
  -- what the clock reads at each place, in microseconds
  compressedAt : Int
  expiryClock : Int
  createdAt : Int
  touchedAt : Int
  storedAt : Int
  scanOrder : ScanOrder
  randomHandles : Fin 4 → Handle

variable (lib : Libraries)

def exceeds (limit : Option Int) (size : Nat) : Prop := ∃ max ∈ limit, max < (size : Int)

instance decidableExceeds (limit : Option Int) (size : Nat) : Decidable (exceeds limit size) :=
  match limit with
  | none => isFalse (fun ⟨_, mem, _⟩ => nomatch mem)
  | some max =>
    decidable_of_iff (max < (size : Int))
      ⟨fun isOver => ⟨max, rfl, isOver⟩, fun ⟨_, same, isOver⟩ => Option.some.inj same ▸ isOver⟩

structure StoredPayload where
  bytes : ByteArray
  contentName : ContentName
  storageEncoding : StorageEncoding

def WriteRequest.payload (request : WriteRequest) : ByteArray := request.content.toUTF8

def WriteRequest.storedPayload (request : WriteRequest) : StoredPayload :=
  let compressed := lib.compress request.compressedAt request.payload
  if exceeds request.maxBytes request.payload.size ∧ compressed.size < request.payload.size then
    ⟨compressed, .compressed, .gzip⟩
  else ⟨request.payload, .plain, .utf8⟩

structure Snapshot where
  sessionId : Text
  sessionKey : Text
  agentId : Text
  payload : ByteArray
  stored : StoredPayload
  sha256 : HexDigest

def WriteRequest.prepare (request : WriteRequest) : Except StoreError Snapshot := do
  let sessionId ← validateNonEmpty "session_id".toList request.sessionId
  let sessionKey ← validateNonEmpty "session_key".toList request.sessionKey
  let agentId ← validateNonEmpty "agent_id".toList request.agentId
  let payload := request.payload
  raiseIf (payload.size = 0) StoreError.snapshotEmpty
  let stored := request.storedPayload lib
  raiseIf (exceeds request.maxBytes stored.bytes.size)
    (StoreError.exceedsPerResultBudget stored.bytes.size payload.size (request.maxBytes.getD 0))
  return {
    sessionId := sessionId
    sessionKey := sessionKey
    agentId := agentId
    payload := payload
    stored := stored
    sha256 := lib.hexdigest payload }

def microsecondsPerSecond : Int := 1000000

def firstInstant : Int := -62135596800 * microsecondsPerSecond

def WriteRequest.cutoff (request : WriteRequest) : Except StoreError (Option Int) :=
  match request.retentionSeconds with
  | none => .ok none
  | some seconds =>
    let cutoff := request.expiryClock - max 0 seconds * microsecondsPerSecond
    if cutoff < firstInstant then .error .cutoffOutOfRange else .ok (some cutoff)

def WriteRequest.accept (request : WriteRequest) : Except StoreError (Snapshot × Option Int) := do
  let snapshot ← request.prepare lib
  let cutoff ← request.cutoff
  return (snapshot, cutoff)

def RecordFiles.stat (dir : RecordDir) (files : RecordFiles) : StoredMeta where
  createdAt := files.content.modifiedAt
  sizeBytes := files.content.bytes.size
  recordDir := dir

def iterRecordStats (store : ToolResultStore) (order : ScanOrder) : List StoredMeta :=
  order.arrange (store.entries.map fun entry => entry.2.stat entry.1)

def isExpired (cutoff : Option Int) (createdAt : Int) : Bool :=
  match cutoff with
  | none => false
  | some cutoff => createdAt < cutoff

def removeExpired (cutoff : Option Int) : ToolResultStore → List StoredMeta → ToolResultStore × List StoredMeta
  | store, [] => (store, [])
  | store, record :: rest =>
    if isExpired cutoff record.createdAt then
      removeExpired cutoff (store.erase record.recordDir) rest
    else
      let (store, survivors) := removeExpired cutoff store rest
      (store, record :: survivors)

-- Deletes record after record until the incoming one fits.
def evictUntilFits (incoming budget : Nat) : ToolResultStore → Nat → List StoredMeta → ToolResultStore × Nat
  | store, current, [] => (store, current)
  | store, current, record :: rest =>
    let store := store.erase record.recordDir
    let current := current - record.sizeBytes
    if current + incoming ≤ budget then (store, current)
    else evictUntilFits incoming budget store current rest

def oldestFirst (records : List StoredMeta) : List StoredMeta :=
  records.insertionSort (fun first second => first.createdAt ≤ second.createdAt)

def pruneToFit (store : ToolResultStore) (records : List StoredMeta) (incoming : Nat)
    (diskBudgetBytes : Int) : ToolResultStore × Except StoreError Unit :=
  let budget := diskBudgetBytes.toNat
  let records := oldestFirst records
  let current := (records.map StoredMeta.sizeBytes).sum
  if current + incoming ≤ budget then (store, .ok ())
  else
    let (store, current) := evictUntilFits incoming budget store current records
    (store, raiseIf (budget < current + incoming)
      (StoreError.exceedsDiskBudget current incoming budget))

def existingRecord (store : ToolResultStore) (request : WriteRequest) (snapshot : Snapshot)
    (handle : Handle) : Option ToolResultRecord := do
  let files ← store.get? (recordDir handle snapshot.sessionId)
  if files.metadata.sha256 = snapshot.sha256 then
    return {
      handle := handle
      toolUseId := request.toolUseId
      toolName := request.toolName
      sessionId := snapshot.sessionId
      sessionKey := snapshot.sessionKey
      agentId := snapshot.agentId
      sha256 := snapshot.sha256
      chars := request.content.length
      sizeBytes := snapshot.payload.size
      createdAt := files.metadata.createdAt
      content := request.content
      storedSizeBytes := files.metadata.storedSizeBytes
      storageEncoding := files.metadata.storageEncoding }
  else none

def RecordFiles.touch (at' : Int) (files : RecordFiles) : RecordFiles :=
  { files with content := { files.content with modifiedAt := at' } }

def touch (store : ToolResultStore) (handle : Handle) (sessionId : Text) (at' : Int) : ToolResultStore :=
  store.modify (recordDir handle sessionId) (RecordFiles.touch at')

def newRecord (request : WriteRequest) (snapshot : Snapshot) (handle : Handle) : ToolResultRecord where
  handle := handle
  toolUseId := request.toolUseId
  toolName := request.toolName
  sessionId := snapshot.sessionId
  sessionKey := snapshot.sessionKey
  agentId := snapshot.agentId
  sha256 := snapshot.sha256
  chars := request.content.length
  sizeBytes := snapshot.payload.size
  createdAt := request.createdAt
  content := request.content
  storedSizeBytes := snapshot.stored.bytes.size
  storageEncoding := snapshot.stored.storageEncoding

def recordFiles (request : WriteRequest) (snapshot : Snapshot) (record : ToolResultRecord) : RecordFiles where
  metadata := {
    handle := record.handle
    toolUseId := record.toolUseId
    toolName := record.toolName
    sessionId := record.sessionId
    sessionKey := record.sessionKey
    agentId := record.agentId
    sha256 := record.sha256
    chars := record.chars
    sizeBytes := record.sizeBytes
    storedSizeBytes := record.storedSizeBytes
    storageEncoding := record.storageEncoding
    contentFile := snapshot.stored.contentName
    createdAt := record.createdAt }
  content := ⟨snapshot.stored.contentName, snapshot.stored.bytes, request.storedAt⟩

def candidateHandles (request : WriteRequest) (snapshot : Snapshot) : List Handle :=
  snapshot.sha256.primaryHandle :: List.ofFn request.randomHandles

/-- Tries one handle after the other until a directory is free or holds this content. -/
def storeUnder (store : ToolResultStore) (request : WriteRequest) (snapshot : Snapshot) :
    List Handle → ToolResultStore × Except StoreError ToolResultRecord
  | [] => (store, .error .noUniqueHandle)
  | handle :: rest =>
    let dir := recordDir handle snapshot.sessionId
    if (store.get? dir).isSome then
      match existingRecord store request snapshot handle with
      | some reused => (touch store handle snapshot.sessionId request.touchedAt, .ok reused)
      | none => storeUnder store request snapshot rest
    else
      let record := newRecord request snapshot handle
      (store.set dir (recordFiles request snapshot record), .ok record)

-- The deletions a write makes, and the record it may reuse.
def cleanUp (store : ToolResultStore) (request : WriteRequest) (snapshot : Snapshot)
    (cutoff : Option Int) : ToolResultStore × Except StoreError (Option ToolResultRecord) :=
  let (store, survivors) :=
    removeExpired cutoff store (iterRecordStats store request.scanOrder)
  match existingRecord store request snapshot snapshot.sha256.primaryHandle with
  | some reused => (store, .ok (some reused))
  | none =>
    match request.diskBudgetBytes with
    | none => (store, .ok none)
    | some budget =>
      let (store, fits) := pruneToFit store survivors snapshot.stored.bytes.size budget
      (store, fits.map fun _ => none)

def write (store : ToolResultStore) (request : WriteRequest) :
    ToolResultStore × Except StoreError ToolResultRecord :=
  match request.accept lib with
  | .error raised => (store, .error raised)
  | .ok (snapshot, cutoff) =>
    match cleanUp store request snapshot cutoff with
    | (store, .error raised) => (store, .error raised)
    | (store, .ok (some reused)) =>
      (touch store snapshot.sha256.primaryHandle snapshot.sessionId request.touchedAt, .ok reused)
    | (store, .ok none) =>
      storeUnder store request snapshot (candidateHandles request snapshot)

def readContent (files : RecordFiles) : Except StoreError ByteArray :=
  if files.metadata.contentFile ≠ files.content.name then .error .missingFile
  else
    match files.metadata.storageEncoding with
    | .utf8 => .ok files.content.bytes
    | .gzip => orRaise (lib.decompress files.content.bytes) .notCompressed

def read (store : ToolResultStore) (handle sessionId : Text) : Except StoreError ToolResultRecord := do
  let sessionId ← validateNonEmpty "session_id".toList sessionId
  let normalized ← validateHandle handle
  let files ← orRaise (store.get? (recordDir normalized sessionId)) StoreError.missingFile
  let payload ← readContent lib files
  let content ← orRaise (String.fromUTF8? payload) StoreError.notUtf8
  let sha256 := lib.hexdigest payload
  raiseIf (files.metadata.sessionId ≠ sessionId) StoreError.sessionMismatch
  raiseIf (sha256 ≠ files.metadata.sha256) StoreError.hashMismatch
  raiseIf (files.metadata.sizeBytes ≠ payload.size) StoreError.sizeMismatch
  return {
    handle := normalized
    toolUseId := files.metadata.toolUseId
    toolName := files.metadata.toolName
    sessionId := files.metadata.sessionId
    sessionKey := files.metadata.sessionKey
    agentId := files.metadata.agentId
    sha256 := sha256
    chars := content.length
    sizeBytes := payload.size
    createdAt := files.metadata.createdAt
    content := content
    storedSizeBytes :=
      if files.metadata.storedSizeBytes = 0 then files.content.bytes.size
      else files.metadata.storedSizeBytes
    storageEncoding := files.metadata.storageEncoding }

end OpenSquilla.Snapshots
