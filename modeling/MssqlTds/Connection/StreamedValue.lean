import MssqlTds.Connection.StreamedParams
import MssqlTds.Datatypes.PacketBoundary
import MssqlTds.Datatypes.PlpAgreement
import MssqlTds.Datatypes.TypeInfoFormat

/-!
# The value of a streamed parameter

However a caller splits the value of a streamed parameter into chunks, and whichever calls are
rejected in between, the bytes between the header of the parameter and the next header are one
partially length-prefixed value: `NULL` if the parameter was marked so, else the accepted chunks one
after the other, which for XML stand behind exactly one byte order mark.

* `Progress` : what the calls made so far have written; `chunk_step`, `null_step` and `end_rejected`
  are the steps, `performAll_progress` is the run.
* `closeValue_emits` : closing the parameter completes the value.
* `readers_read_plpEncoding` : the readers decode such a value if its chunks are of readable size.
* `streamed_value_delivered` : the result.
-/

namespace MssqlTds

open Bytes Unicode Reader PacketWriter GenericDecoder PlpChunkStreamReader EState List

/-! ### Values in chunks -/

/-- A chunk behind its length. -/
def plpPiece (bytes : List UInt8) : List UInt8 := leBytes 4 bytes.length ++ bytes

/-- A value of unknown length in the given chunks. -/
def plpEncoding (chunks : List (List UInt8)) : List UInt8 :=
  leBytes 8 plpUnknownLen.toNat ++ (chunks.flatMap plpPiece ++ leBytes 4 0)

theorem wireChunks_eq (chunks : List (List UInt8)) :
    wireChunks chunks = chunks.flatMap plpPiece ++ leBytes 4 0 := by
  induction chunks with
  | nil => rfl
  | cons chunk chunks ih => simp [wireChunks, ih, plpPiece]

/-- Both readers take the value, and nothing behind it. -/
def ReadersDecode (value : List UInt8) (v : Option (List UInt8)) : Prop :=
  ∀ rest, readPlpBytes (value ++ rest) = .ok (v, rest) ∧
    ∀ sizes : ℕ → ℕ, (∀ i, 0 < sizes i) → readToEnd sizes (value ++ rest) = .ok (v, rest)

theorem readers_read_plpEncoding {chunks : List (List UInt8)} (hne : ∀ chunk ∈ chunks, chunk ≠ [])
    (hsize : ∀ chunk ∈ chunks, chunk.length ≤ maxPlpChunkSize)
    (htotal : chunks.flatten.length ≤ maxPlpSize) :
    ReadersDecode (plpEncoding chunks) (some chunks.flatten) := by
  have hpos : ∀ chunk ∈ chunks, 0 < chunk.length :=
    fun chunk hmem => length_pos_iff.mpr (hne chunk hmem)
  intro rest
  rw [plpEncoding, ← wireChunks_eq, append_assoc]
  refine ⟨readPlpBytes_wireChunks hpos hsize htotal, fun sizes hsizes => ?_⟩
  exact (readToEnd_unknown hsizes (.inl rfl) (readInt64_leBytes _)).mpr
    ⟨_, rfl, chunkStream_wireChunks hpos hsize (by rwa [Nat.zero_add])⟩

theorem readers_read_plpNull : ReadersDecode (leBytes 8 plpNull.toNat) none := by
  intro rest
  have hread : readInt64 (leBytes 8 plpNull.toNat ++ rest) = .ok (plpNull.toInt64, rest) :=
    readInt64_leBytes plpNull
  have hnull (sizes : ℕ → ℕ) : readPlpBytes (leBytes 8 plpNull.toNat ++ rest) = .ok (none, rest) ∧
      readToEnd sizes (leBytes 8 plpNull.toNat ++ rest) = .ok (none, rest) :=
    readers_null hread rfl
  exact ⟨(hnull fun _ => 1).1, fun sizes _ => (hnull sizes).2⟩

/-! ### The header of a streamed parameter -/

def StreamedSqlType.typeInfo (dbCollation : SqlCollation) : StreamedSqlType → List UInt8
  | nVarcharMax =>
    SqlType.collatedTypeInfoBytes TdsDataType.nVarChar.code maxU16Length dbCollation
  | varcharMax =>
    SqlType.collatedTypeInfoBytes TdsDataType.bigVarChar.code maxU16Length dbCollation
  | varBinaryMax => [TdsDataType.bigVarBinary.code] ++ leBytes 2 maxU16Length.toNat
  | xml => [TdsDataType.xml.code, 0x00]
  | udt n => [TdsDataType.udt.code] ++
      (wireTypeNamePart n.dbName ++ (wireTypeNamePart n.schemaName ++
        wireTypeNamePart (some n.typeName)))

def StreamedSqlType.isXml : StreamedSqlType → Bool
  | xml => true
  | _ => false

/-- A streamed parameter that has passed the checks of the call that opened the request. -/
structure Streamable (p : RpcParameter) (name : List Char) (sqlType : StreamedSqlType) :
    Prop where
  name_eq : p.name = some name
  value_eq : p.value = .streamed sqlType
  valid : sqlType.validate = .ok ()
  name_valid : validateNameLength name = .ok ()
  plain : p.encrypted = none

/-- Name, status byte and type description of a streamed parameter. -/
def streamedHeader (dbCollation : SqlCollation) (isPositional : Bool) (p : RpcParameter)
    (name : List Char) (sqlType : StreamedSqlType) : List UInt8 :=
  (if isPositional then [0] else UInt8.ofNat (asBytes name).length :: utf16le name) ++
    ([p.options] ++ sqlType.typeInfo dbCollation)

variable {sqlType : StreamedSqlType}

theorem writeTypeInfo_emits (cs : Codecs) (dbCollation : SqlCollation)
    (h : sqlType.validate = .ok ()) :
    Emits (sqlType.asSqlType.writeTypeInfo cs dbCollation none none)
      (sqlType.typeInfo dbCollation) := by
  cases sqlType with
  | nVarcharMax | varcharMax => exact Emits.fixedBytes _
  | varBinaryMax => exact (Emits.byte _).bind (Emits.u16 _)
  | xml => exact (Emits.byte _).bind ((Emits.byte _).bind Emits.pure)
  | udt n => exact (Emits.byte _).bind (writeUdtTypeName_emits h)

variable {p : RpcParameter} {name : List Char}

/-- The header of a streamed parameter is all that is written of it at once. -/
theorem serialize_streamed_emits (cs : Codecs)
    (serializeTable : TvpTypeName → Option TvpTableData → WriterM Unit)
    (dbCollation : SqlCollation) (isPositional : Bool) (h : Streamable p name sqlType) :
    Emits (p.serialize cs serializeTable dbCollation isPositional)
      (streamedHeader dbCollation isPositional p name sqlType) := by
  have hname : Emits (p.writeName isPositional)
      (if isPositional then [0] else UInt8.ofNat (asBytes name).length :: utf16le name) := by
    simp only [RpcParameter.writeName, RpcParameter.optionsWritten, h.value_eq, h.name_eq,
      h.name_valid, Bool.false_eq_true, if_false]
    cases isPositional with
    | true => exact Emits.byte 0
    | false => exact (Emits.byte _).bind (Emits.string name)
  rw [RpcParameter.serialize, h.value_eq, h.plain]
  exact hname.bind ((Emits.byte _).bind (writeTypeInfo_emits cs dbCollation h.valid))

/-! ### Writing to the parked message -/

/-- The payload bytes of the connection: those sent and those still buffered. -/
def PacketWriter.outgoing (w : PacketWriter) : List UInt8 := w.sentPayload ++ w.buffered

theorem PacketWriter.outgoing_of_steps {w w' : PacketWriter} {ps : List (List UInt8)}
    {bs : List UInt8} (h : Steps w w' ps bs) : w'.outgoing = w.outgoing ++ bs := by
  rw [outgoing, sentPayload_of_steps h, append_assoc, h.stream, ← append_assoc]
  rfl

namespace StreamClient

variable (retract : SuspendedMessage → StreamClient → StreamClient) {c : StreamClient}
  {ctx ctx₀ : StreamedWriteContext} {m : WriterM Unit} {bs : List UInt8}

/-- The payload bytes of the connection, those of a parked message included. -/
def payload (c : StreamClient) : List UInt8 :=
  match c.streamedWriteState with
  | .idle => c.network.log.flatMap fun r => MssqlTds.payload r.packet
  | .active ctx => (resume ctx.message c.network).outgoing

theorem payload_of_active (h : c.streamedWriteState = .active ctx) :
    c.payload = (resume ctx.message c.network).outgoing := by
  rw [payload, h]

theorem resumeMessage_of_ok {w' : PacketWriter} (htoken : c.tokenCancelled = false)
    (hrun : m (resume ctx.message c.network) = .ok () w') :
    resumeMessage retract ctx m c
      = .ok ((), w'.suspend) { c with network := w'.network, streamedWriteState := .idle } := by
  have hcheck : w'.suspend.checkCancellation c.tokenCancelled = .ok () := by
    rw [SuspendedMessage.checkCancellation, htoken, Bool.and_false]
    rfl
  simp only [resumeMessage, hrun, hcheck]

/-- A write that succeeds on every network succeeds on the parked message. -/
theorem resumeMessage_emits (hready : Ready (resume ctx.message c.network))
    (htoken : c.tokenCancelled = false) (hm : Emits m bs) :
    ∃ w', resumeMessage retract ctx m c
        = .ok ((), w'.suspend) { c with network := w'.network, streamedWriteState := .idle } ∧
      Ready w' ∧
      w'.outgoing = (resume ctx.message c.network).outgoing ++ bs := by
  obtain ⟨w', ps, hrun, hready', hsteps⟩ := hm _ hready
  exact ⟨w', resumeMessage_of_ok retract htoken hrun, hready', outgoing_of_steps hsteps⟩

theorem writeValueOpening_emits (valueOpened : Bool) :
    Emits (writeValueOpening valueOpened)
      (if valueOpened then [] else leBytes 8 plpUnknownLen.toNat) := by
  cases valueOpened with
  | true => exact .pure
  | false => exact Emits.u64 plpUnknownLen

theorem writePlpPiece_emits (bytes : List UInt8) : Emits (writePlpPiece bytes) (plpPiece bytes) :=
  (writeLen32_emits _).bind (Emits.slice _)

/-- The client after a chunk was appended to the value. -/
structure Appended (c : StreamClient) (ctx : StreamedWriteContext) (base bs : List UInt8) :
    Prop where
  active : c.streamedWriteState = .active ctx
  ready : Ready (resume ctx.message c.network)
  token : c.tokenCancelled = false
  payload : c.payload = base ++ bs

theorem appendToValue_emits (hready : Ready (resume ctx.message c.network))
    (hactive : c.streamedWriteState = .active ctx) (htoken : c.tokenCancelled = false)
    (xmlBomState : StreamedXmlBomState) (hm : Emits m bs) :
    ∃ c' message, appendToValue retract ctx xmlBomState m c = .ok () c' ∧
      Appended c' { ctx with message, xmlBomState, valueOpened := true, nullSignaled := false }
        c.payload ((if ctx.valueOpened then [] else leBytes 8 plpUnknownLen.toNat) ++ bs) := by
  obtain ⟨w', hrun, hready', hout⟩ := resumeMessage_emits retract hready htoken
    ((writeValueOpening_emits ctx.valueOpened).bind hm)
  let ctx' : StreamedWriteContext := { ctx with
    message := w'.suspend, xmlBomState, valueOpened := true, nullSignaled := false }
  let c' : StreamClient := { c with network := w'.network, streamedWriteState := .active ctx' }
  refine ⟨c', w'.suspend, ?_, rfl, hready', htoken, ?_⟩
  · rw [appendToValue, bind_ok hrun]
    rfl
  · rw [payload_of_active hactive, ← hout]
    rfl

/-! ### The value so far -/

/-- The value that a streamed parameter amounts to: the data, for XML behind exactly one mark. -/
def streamedValue (isXml : Bool) (data : List UInt8) : List UInt8 :=
  if isXml then utf16Bom ++ (if data.take 2 = utf16Bom then data.drop 2 else data) else data

/-- What the chunks written so far have to do with the data accepted so far. -/
def BomHolds (isXml : Bool) (data : List UInt8) (chunks : List (List UInt8)) :
    StreamedXmlBomState → Prop
  | .notXml => isXml = false ∧ chunks.flatten = data
  | .pending held => isXml = true ∧ chunks = [] ∧ held = data ∧ data.length < 2
  | .written => isXml = true ∧ 2 ≤ data.length ∧ chunks.flatten = streamedValue true data

/-- The open value after chunks `accepted` were accepted, and `NULL` if `nulled`; the message holds
`chunks` of it. -/
structure Progress (isXml : Bool) (ctx : StreamedWriteContext) (accepted : List (List UInt8))
    (nulled : Bool) (chunks : List (List UInt8)) : Prop where
  null_eq : ctx.nullSignaled = nulled
  untouched : nulled = true → accepted.flatten = []
  opened : ctx.valueOpened = true ↔ chunks ≠ []
  nonempty : ∀ chunk ∈ chunks, chunk ≠ []
  bounded : ∀ bound, 2 ≤ bound → (∀ bytes ∈ accepted, bytes.length ≤ bound) →
    ∀ chunk ∈ chunks, chunk.length ≤ bound
  bom : BomHolds isXml accepted.flatten chunks ctx.xmlBomState

/-- The bytes of a value whose chunks so far are `chunks`. -/
def openedBytes (chunks : List (List UInt8)) : List UInt8 :=
  if chunks = [] then [] else leBytes 8 plpUnknownLen.toNat ++ chunks.flatMap plpPiece

section

variable {isXml nulled : Bool} {accepted chunks more : List (List UInt8)} {data bytes : List UInt8}

theorem openedBytes_append (h : ctx.valueOpened = true ↔ chunks ≠ []) (hmore : more ≠ []) :
    openedBytes (chunks ++ more) = openedBytes chunks ++
      ((if ctx.valueOpened then [] else leBytes 8 plpUnknownLen.toNat) ++
        more.flatMap plpPiece) := by
  by_cases hchunks : chunks = []
  · have hclosed : ctx.valueOpened = false := by simpa [hchunks] using h
    simp [openedBytes, hchunks, hmore, hclosed]
  · simp [openedBytes, hchunks, h.mpr hchunks]

theorem flatten_ne_nil (hne : ∀ chunk ∈ chunks, chunk ≠ []) (h : chunks ≠ []) :
    chunks.flatten ≠ [] := by
  intro hnil
  obtain ⟨chunk, hmem⟩ := exists_mem_of_ne_nil chunks h
  exact hne chunk hmem (flatten_eq_nil_iff.mp hnil chunk hmem)

/-- A value of which something was accepted is not `NULL`. -/
theorem Progress.nulled_eq_false (h : Progress isXml ctx accepted nulled chunks)
    (hdata : ctx.valueOpened = true ∨ ctx.xmlBomState.hasPendingBytes = true) :
    nulled = false := by
  by_contra hnulled
  have hnil := h.untouched (by simpa using hnulled)
  have hbom := h.bom
  rw [hnil] at hbom
  rcases hdata with hopened | hpending
  · have hflat := flatten_ne_nil h.nonempty (h.opened.mp hopened)
    cases hstate : ctx.xmlBomState with
    | notXml =>
      rw [hstate] at hbom
      exact hflat hbom.2
    | pending held =>
      rw [hstate] at hbom
      exact h.opened.mp hopened hbom.2.1
    | written =>
      rw [hstate] at hbom
      exact absurd hbom.2.1 (by simp)
  · cases hstate : ctx.xmlBomState with
    | notXml | written =>
      rw [hstate] at hpending
      cases hpending
    | pending held =>
      rw [hstate] at hbom hpending
      rw [hbom.2.2.1] at hpending
      cases hpending

/-- A value that is neither opened nor held back is empty. -/
theorem Progress.flatten_eq_nil (h : Progress isXml ctx accepted nulled chunks)
    (hopened : ctx.valueOpened = false) (hpending : ctx.xmlBomState.hasPendingBytes = false) :
    accepted.flatten = [] := by
  have hchunks : chunks = [] := by
    by_contra hne
    rw [h.opened.mpr hne] at hopened
    cases hopened
  have hbom := h.bom
  cases hstate : ctx.xmlBomState with
  | notXml =>
    rw [hstate, hchunks] at hbom
    exact hbom.2.symm
  | pending held =>
    rw [hstate] at hbom hpending
    rw [← hbom.2.2.1]
    simpa [StreamedXmlBomState.hasPendingBytes] using hpending
  | written =>
    rw [hstate, hchunks] at hbom
    exact absurd hbom.2.2 (by simp [streamedValue, utf16Bom])

/-- Once the mark is settled, data is appended as it is. -/
theorem streamedValue_append (h : 2 ≤ data.length) :
    streamedValue true (data ++ bytes) = streamedValue true data ++ bytes := by
  simp only [streamedValue, if_true, take_append_of_le_length h,
    drop_append_of_le_length h]
  split <;> rw [append_assoc]

/-- The chunks in which the first bytes of an XML value are written. -/
def xmlChunks (held rest : List UInt8) : List (List UInt8) :=
  [utf16Bom] ++ ((if held ≠ utf16Bom then [held] else []) ++ if rest ≠ [] then [rest] else [])

theorem writeXmlOpening_emits (held rest : List UInt8) :
    Emits (writeXmlOpening held rest) ((xmlChunks held rest).flatMap plpPiece) := by
  have hheld : Emits (if held ≠ utf16Bom then writePlpPiece held else pure ())
      ((if held ≠ utf16Bom then [held] else []).flatMap plpPiece) := by
    split
    · simpa using writePlpPiece_emits held
    · exact .pure
  have hrest : Emits (if rest ≠ [] then writePlpPiece rest else pure ())
      ((if rest ≠ [] then [rest] else []).flatMap plpPiece) := by
    split
    · simpa using writePlpPiece_emits rest
    · exact .pure
  simp only [xmlChunks, flatMap_append, flatMap_singleton]
  exact (writePlpPiece_emits utf16Bom).bind (hheld.bind hrest)

variable {held rest : List UInt8}

theorem flatten_xmlChunks (h : held.length = 2) :
    (xmlChunks held rest).flatten = streamedValue true (held ++ rest) := by
  have htake : (held ++ rest).take 2 = held := by rw [← h, take_left]
  have hdrop : (held ++ rest).drop 2 = rest := by rw [← h, drop_left]
  have hrest : (if rest ≠ [] then [rest] else []).flatten = rest := by
    split
    · simp
    · next hnil => simp [not_not.mp hnil]
  simp only [xmlChunks, flatten_append, flatten_singleton, hrest, streamedValue, if_true,
    htake, hdrop]
  by_cases hbom : held = utf16Bom <;> simp [hbom]

theorem mem_xmlChunks (h : held.length = 2) (chunk : List UInt8)
    (hmem : chunk ∈ xmlChunks held rest) : chunk ≠ [] ∧ chunk.length ≤ max 2 rest.length := by
  simp only [xmlChunks, mem_append, mem_singleton, mem_ite_nil_right] at hmem
  rcases hmem with rfl | ⟨-, rfl⟩ | ⟨hne, rfl⟩
  · exact ⟨by decide, Nat.le_max_left _ _⟩
  · exact ⟨ne_nil_of_length_pos (by omega), by omega⟩
  · exact ⟨hne, Nat.le_max_right _ _⟩

/-- More chunks of the value, for one more accepted chunk. -/
theorem Progress.append (h : Progress isXml ctx accepted nulled chunks)
    {ctx' : StreamedWriteContext}
    (hnull : ctx'.nullSignaled = false) (hopened : ctx'.valueOpened = true) (hmore : more ≠ [])
    (hne : ∀ chunk ∈ more, chunk ≠ [])
    (hlen : ∀ chunk ∈ more, chunk.length ≤ max 2 bytes.length)
    (hbom : BomHolds isXml (accepted.flatten ++ bytes) (chunks ++ more) ctx'.xmlBomState) :
    Progress isXml ctx' (accepted ++ [bytes]) false (chunks ++ more) where
  null_eq := hnull
  untouched h := (nomatch h)
  opened := by simp [hopened, hmore]
  nonempty chunk hmem := by
    rcases mem_append.mp hmem with hmem | hmem
    · exact h.nonempty chunk hmem
    · exact hne chunk hmem
  bounded bound htwo hall chunk hmem := by
    rcases mem_append.mp hmem with hmem | hmem
    · exact h.bounded bound htwo (fun b hb => hall b (mem_append_left _ hb)) chunk hmem
    · have hbytes : bytes.length ≤ bound := hall bytes (by simp)
      exact (hlen chunk hmem).trans (max_le htwo hbytes)
  bom := by
    rw [flatten_append, flatten_singleton]
    exact hbom

/-! ### Steps -/

/-- Both contexts belong to one request, at the same parameter. -/
structure SameRequest (ctx₀ ctx : StreamedWriteContext) : Prop where
  pending : ctx.pending = ctx₀.pending
  dbCollation : ctx.dbCollation = ctx₀.dbCollation
  valueBinding : ctx.valueBinding = ctx₀.valueBinding
  prepared : ctx.prepared = ctx₀.prepared

/-- The client while a parameter is open: `base` was written up to its value, of which `accepted`
was accepted and `chunks` are in the message. -/
structure Streaming (ctx₀ : StreamedWriteContext) (isXml : Bool) (base : List UInt8)
    (c : StreamClient) (ctx : StreamedWriteContext) (accepted : List (List UInt8)) (nulled : Bool)
    (chunks : List (List UInt8)) : Prop extends Appended c ctx base (openedBytes chunks) where
  request : SameRequest ctx₀ ctx
  progress : Progress isXml ctx accepted nulled chunks

variable {base : List UInt8}

/-- The call was rejected as a usage error and left the client as it was. -/
def Rejected {α : Type} (call : StreamM α) (c : StreamClient) : Prop :=
  ∃ message, call c = .error (.usageError message) c

/-- Appending chunks to the message. -/
theorem Streaming.appendToValue (h : Streaming ctx₀ isXml base c ctx accepted nulled chunks)
    (xmlBomState : StreamedXmlBomState) (more : List (List UInt8)) (bytes : List UInt8)
    (hm : Emits m (more.flatMap plpPiece)) (hmore : more ≠ [])
    (hne : ∀ chunk ∈ more, chunk ≠ [])
    (hlen : ∀ chunk ∈ more, chunk.length ≤ max 2 bytes.length)
    (hbom : BomHolds isXml (accepted.flatten ++ bytes) (chunks ++ more) xmlBomState) :
    ∃ c' ctx', StreamClient.appendToValue retract ctx xmlBomState m c = .ok () c' ∧
      Streaming ctx₀ isXml base c' ctx' (accepted ++ [bytes]) false (chunks ++ more) := by
  obtain ⟨c', message, hrun, happended⟩ :=
    appendToValue_emits retract h.ready h.active h.token xmlBomState hm
  refine ⟨c', _, hrun, ⟨happended.active, happended.ready, happended.token, ?_⟩, ?_, ?_⟩
  · rw [happended.payload, h.payload, openedBytes_append h.progress.opened hmore,
      append_assoc]
  · exact { h.request with }
  · exact h.progress.append rfl rfl hmore hne hlen hbom

/-- A chunk that completes the bytes held back, or does not. -/
theorem heldFrom_spec {held chunk : List UInt8} (hheld : held.length < 2) (hchunk : chunk ≠ []) :
    (held ++ chunk.take (heldFrom held chunk)).length < 2 ∧ held = [] ∧
        chunk.take (heldFrom held chunk) = chunk ∨
      (held ++ chunk.take (heldFrom held chunk)).length = 2 := by
  have hpos : 0 < chunk.length := length_pos_iff.mpr hchunk
  unfold heldFrom
  split
  · next h =>
    right
    rw [length_append, length_take, h.1]
    omega
  · next h =>
    rcases Nat.lt_or_ge 0 held.length with hone | hzero
    · right
      rw [length_append, length_take]
      omega
    · left
      have hnil : held = [] := length_eq_zero_iff.mp (by omega)
      have hlen : chunk.length = 1 := by
        rw [not_and, Nat.not_lt] at h
        have := h (by omega)
        omega
      exact ⟨by simp [hnil, hlen], hnil, take_of_length_le (by omega)⟩

/-- An empty chunk is accepted and ignored. -/
theorem Streaming.accept_nil (h : Streaming ctx₀ isXml base c ctx accepted nulled chunks)
    (hempty : bytes = []) :
    Streaming ctx₀ isXml base c ctx (accepted ++ [bytes]) nulled chunks := by
  have hflat : (accepted ++ [bytes]).flatten = accepted.flatten := by simp [hempty]
  refine { h with progress := { h.progress with untouched := ?_, bounded := ?_, bom := ?_ } }
  · rw [hflat]
    exact h.progress.untouched
  · intro bound htwo hall
    exact h.progress.bounded bound htwo fun b hb => hall b (mem_append_left _ hb)
  · rw [hflat]
    exact h.progress.bom

/-- A chunk of a value that is not XML is appended as it is. -/
theorem chunk_accepted (h : Streaming ctx₀ false base c ctx accepted false chunks)
    (hlen : bytes.length ≤ 0xFFFFFFFF) (hne : bytes ≠ []) :
    ∃ c' ctx', writeStreamedChunk retract bytes c = .ok () c' ∧
      Streaming ctx₀ false base c' ctx' (accepted ++ [bytes]) false (chunks ++ [bytes]) := by
  have hget : writeStreamedChunk retract bytes c = _ := bind_ok get_apply
  rw [h.active] at hget
  dsimp only at hget
  rw [if_neg (Nat.not_lt.mpr hlen), if_neg (by simp [h.progress.null_eq]), if_neg hne] at hget
  have hbom := h.progress.bom
  cases hstate : ctx.xmlBomState with
  | notXml =>
    rw [hstate] at hbom hget
    obtain ⟨c', ctx', hrun, hstreaming⟩ := h.appendToValue retract .notXml [bytes] bytes
      (by simpa using writePlpPiece_emits bytes) (by simp) (by simpa using hne) (by simp)
      ⟨rfl, by simp [hbom.2]⟩
    exact ⟨c', ctx', hget.trans hrun, hstreaming⟩
  | written | pending _ =>
    rw [hstate] at hbom
    exact absurd hbom.1 (by decide)

theorem chunk_step (h : Streaming ctx₀ isXml base c ctx accepted nulled chunks)
    (bytes : List UInt8) :
    Rejected (writeStreamedChunk retract bytes) c ∨
      ∃ c' ctx' chunks', writeStreamedChunk retract bytes c = .ok () c' ∧
        Streaming ctx₀ isXml base c' ctx' (accepted ++ [bytes]) nulled chunks' := by
  have hget : writeStreamedChunk retract bytes c = _ := bind_ok get_apply
  rw [h.active] at hget
  dsimp only at hget
  by_cases hlong : bytes.length > 0xFFFFFFFF
  · left
    rw [Rejected, hget, if_pos hlong]
    exact ⟨_, rfl⟩
  rw [if_neg hlong] at hget
  by_cases hnull : ctx.nullSignaled = true
  · left
    rw [Rejected, hget, if_pos hnull]
    exact ⟨_, rfl⟩
  rw [if_neg hnull] at hget
  obtain rfl : nulled = false := by
    rw [← h.progress.null_eq]
    simpa using hnull
  right
  by_cases hempty : bytes = []
  · rw [if_pos hempty] at hget
    exact ⟨c, ctx, chunks, hget, h.accept_nil hempty⟩
  rw [if_neg hempty] at hget
  have hbom := h.progress.bom
  cases hstate : ctx.xmlBomState with
  | notXml =>
    rw [hstate] at hbom
    obtain ⟨rfl, -⟩ := hbom
    obtain ⟨c', ctx', hrun, hstreaming⟩ := chunk_accepted retract h (Nat.not_lt.mp hlong) hempty
    exact ⟨c', ctx', _, hrun, hstreaming⟩
  | written =>
    rw [hstate] at hbom hget
    obtain ⟨hxml, hlen, hflat⟩ := hbom
    obtain ⟨c', ctx', hrun, hstreaming⟩ := h.appendToValue retract .written [bytes] bytes
      (by simpa using writePlpPiece_emits bytes) (by simp) (by simpa using hempty) (by simp)
      ⟨hxml, by rw [length_append]; omega, by simp [hflat, streamedValue_append hlen]⟩
    exact ⟨c', ctx', _, hget.trans hrun, hstreaming⟩
  | pending held =>
    rw [hstate] at hbom hget
    obtain ⟨hxml, rfl, rfl, hlen⟩ := hbom
    dsimp only at hget
    rcases heldFrom_spec hlen hempty with ⟨hshort, hnil, htake⟩ | hfull
    · -- a single byte so far: it is kept back
      rw [if_pos hshort, htake] at hget
      rw [htake] at hshort
      let ctx' := { ctx with xmlBomState := .pending (accepted.flatten ++ bytes) }
      refine ⟨{ c with streamedWriteState := .active ctx' }, ctx', [], hget,
        ⟨rfl, h.ready, h.token, ?_⟩, ?_, ?_⟩
      · rw [← h.payload, payload_of_active h.active]
        rfl
      · exact { h.request with }
      · exact { h.progress with
          untouched := fun h => (nomatch h)
          bounded := fun _ _ _ chunk hmem => absurd hmem not_mem_nil
          bom := ⟨hxml, rfl, by simp, by simpa using hshort⟩ }
    · rw [if_neg (by omega)] at hget
      have hdata : accepted.flatten ++ bytes.take (heldFrom accepted.flatten bytes) ++
          bytes.drop (heldFrom accepted.flatten bytes) = accepted.flatten ++ bytes := by
        rw [append_assoc, take_append_drop]
      have hpieces := @mem_xmlChunks _ (bytes.drop (heldFrom accepted.flatten bytes)) hfull
      have hdrop : (bytes.drop (heldFrom accepted.flatten bytes)).length ≤ bytes.length := by simp
      obtain ⟨c', ctx', hrun, hstreaming⟩ := h.appendToValue retract .written _ bytes
        (writeXmlOpening_emits _ _) (by simp [xmlChunks]) (fun chunk hmem => (hpieces chunk hmem).1)
        (fun chunk hmem => (hpieces chunk hmem).2.trans (by omega))
        ⟨hxml, by rw [← hdata, length_append]; omega,
          by rw [nil_append, flatten_xmlChunks hfull, hdata]⟩
      exact ⟨c', ctx', _, hget.trans hrun, hstreaming⟩

/-- Marking the parameter `NULL` is accepted as long as no data was. -/
theorem null_step (h : Streaming ctx₀ isXml base c ctx accepted nulled chunks) :
    Rejected writeStreamedNull c ∨
      ∃ c' ctx', writeStreamedNull c = .ok () c' ∧
        Streaming ctx₀ isXml base c' ctx' accepted true chunks := by
  have hget : writeStreamedNull c = _ := bind_ok get_apply
  rw [h.active] at hget
  dsimp only at hget
  by_cases hdata : (ctx.valueOpened || ctx.xmlBomState.hasPendingBytes) = true
  · left
    rw [if_pos hdata] at hget
    -- the flag that is cleared was not set
    have hnull : ctx.nullSignaled = false := by
      rw [h.progress.null_eq]
      exact h.progress.nulled_eq_false (by simpa using hdata)
    have hsame :
        { c with streamedWriteState := .active { ctx with nullSignaled := false } } = c := by
      rw [← hnull, ← h.active]
    have herror : writeStreamedNull c = .error nullAfterChunk
        { c with streamedWriteState := .active { ctx with nullSignaled := false } } := hget
    rw [hsame] at herror
    exact ⟨_, herror⟩
  · right
    rw [if_neg hdata] at hget
    simp only [Bool.or_eq_true, not_or, Bool.not_eq_true] at hdata
    let ctx' := { ctx with valueOpened := false, nullSignaled := true }
    refine ⟨{ c with streamedWriteState := .active ctx' }, ctx', hget, ⟨rfl, h.ready, h.token, ?_⟩,
      ?_, ?_⟩
    · rw [← h.payload, payload_of_active h.active]
      rfl
    · exact { h.request with }
    · exact { h.progress with
        null_eq := rfl
        untouched := fun _ => h.progress.flatten_eq_nil hdata.1 hdata.2
        opened := by rw [← h.progress.opened, hdata.1] }

/-- The call that belongs to the other kind of request. -/
theorem end_rejected (cs : Codecs)
    (serializeTable : TvpTypeName → Option TvpTableData → WriterM Unit)
    (h : Streaming ctx₀ isXml base c ctx accepted nulled chunks) {prepared : Bool}
    (hprepared : prepared ≠ ctx₀.prepared) :
    Rejected (endStreamedParam cs serializeTable retract prepared) c := by
  have hget : endStreamedParam cs serializeTable retract prepared c = _ :=
    bind_ok get_apply
  rw [h.active] at hget
  dsimp only at hget
  rw [if_pos (by rw [h.request.prepared]; exact hprepared.symm)] at hget
  exact ⟨_, hget⟩

/-! ### Runs -/

def acceptedChunks (results : List (Call × TdsResult Unit)) : List (List UInt8) :=
  results.filterMap fun
    | (.chunk bytes, .ok _) => some bytes
    | _ => none

/-- Whether the parameter was marked `NULL`. -/
def nullAccepted (results : List (Call × TdsResult Unit)) : Bool :=
  results.any fun
    | (.null, .ok _) => true
    | _ => false

/-- The call was carried out, or rejected without any effect. -/
def AcceptedOrRejected (call : StreamM Unit) (c : StreamClient) : Prop :=
  Rejected call c ∨ ∃ c', call c = .ok () c'

variable (cs : Codecs) (serializeTable : TvpTypeName → Option TvpTableData → WriterM Unit)

/-- Any call but the closing one. -/
theorem perform_step (h : Streaming ctx₀ isXml base c ctx accepted nulled chunks) {call : Call}
    (hcall : call ≠ .endParam ctx₀.prepared) :
    Rejected (perform cs serializeTable retract call) c ∨
      ∃ c' ctx' chunks', perform cs serializeTable retract call c = .ok () c' ∧
        Streaming ctx₀ isXml base c' ctx' (accepted ++ acceptedChunks [(call, .ok ())])
          (nulled || nullAccepted [(call, .ok ())]) chunks' := by
  cases call with
  | chunk bytes => simpa [perform, acceptedChunks, nullAccepted] using chunk_step retract h bytes
  | null =>
    rcases null_step h with hrejected | ⟨c', ctx', hrun, hstreaming⟩
    · exact .inl hrejected
    · exact .inr ⟨c', ctx', chunks, hrun,
        by simpa [acceptedChunks, nullAccepted] using hstreaming⟩
  | endParam prepared =>
    obtain ⟨message, hrun⟩ := end_rejected retract cs serializeTable h
      (fun heq => hcall (congrArg Call.endParam heq))
    exact .inl ⟨message, bind_error hrun⟩

/-- Calls that do not close the parameter keep it open, and what was accepted adds up. -/
theorem performAll_progress (calls : List Call)
    (h : Streaming ctx₀ isXml base c ctx accepted nulled chunks)
    (hcalls : ∀ call ∈ calls, call ≠ .endParam ctx₀.prepared) :
    ∃ ctx' chunks', Streaming ctx₀ isXml base (performAll cs serializeTable retract calls c).2 ctx'
      (accepted ++ acceptedChunks (performAll cs serializeTable retract calls c).1)
      (nulled || nullAccepted (performAll cs serializeTable retract calls c).1) chunks' := by
  induction calls generalizing c ctx accepted nulled chunks with
  | nil => exact ⟨ctx, chunks, by simpa [performAll, acceptedChunks, nullAccepted] using h⟩
  | cons call calls ih =>
    have hrest : ∀ call ∈ calls, call ≠ .endParam ctx₀.prepared :=
      fun call hmem => hcalls call (mem_cons_of_mem _ hmem)
    rcases perform_step retract cs serializeTable h (hcalls call mem_cons_self) with
      ⟨message, hrun⟩ | ⟨c', ctx', chunks', hrun, hstep⟩
    · obtain ⟨ctx', chunks', hrest⟩ := ih h hrest
      refine ⟨ctx', chunks', ?_⟩
      simp only [performAll, hrun]
      simpa [acceptedChunks, nullAccepted] using hrest
    · obtain ⟨ctx'', chunks'', hrest⟩ := ih hstep hrest
      refine ⟨ctx'', chunks'', ?_⟩
      simp only [performAll, hrun]
      cases call <;> simpa [acceptedChunks, nullAccepted] using hrest

/-- No call of a run that does not close the parameter has an effect unless it is accepted. -/
theorem performAll_rejected (before after : List Call) (call : Call)
    (h : Streaming ctx₀ isXml base c ctx accepted nulled chunks)
    (hcalls : ∀ other ∈ before ++ call :: after, other ≠ .endParam ctx₀.prepared) :
    AcceptedOrRejected (perform cs serializeTable retract call)
      (performAll cs serializeTable retract before c).2 := by
  obtain ⟨ctx', chunks', hbefore⟩ := performAll_progress retract cs serializeTable before h
    fun other hmem => hcalls other (mem_append_left _ hmem)
  rcases perform_step retract cs serializeTable hbefore (hcalls call (by simp)) with
    hrejected | ⟨c', _, _, hrun, -⟩
  · exact .inl hrejected
  · exact .inr ⟨c', hrun⟩

/-! ### Closing the parameter -/

/-- The finished value of a parameter of which `accepted` was accepted: `NULL`, or chunks that
amount to the data and are no longer than those accepted. -/
inductive ClosedValue (isXml : Bool) (accepted : List (List UInt8)) : Bool → List UInt8 → Prop
  | null : ClosedValue isXml accepted true (leBytes 8 plpNull.toNat)
  | chunks {chunks : List (List UInt8)} (hne : ∀ chunk ∈ chunks, chunk ≠ [])
      (hbounded : ∀ bound, 2 ≤ bound → (∀ bytes ∈ accepted, bytes.length ≤ bound) →
        ∀ chunk ∈ chunks, chunk.length ≤ bound)
      (hflat : chunks.flatten = streamedValue isXml accepted.flatten) :
      ClosedValue isXml accepted false (plpEncoding chunks)

/-- The chunks that closing a value adds: the mark and what was held back for it. -/
def closingChunks : StreamedXmlBomState → List (List UInt8)
  | .pending held => [utf16Bom] ++ if held ≠ [] then [held] else []
  | _ => []

theorem closeValue_chunks_emits (ctx : StreamedWriteContext) (hnull : ctx.nullSignaled = false) :
    Emits (closeValue ctx) ((if ctx.valueOpened then [] else leBytes 8 plpUnknownLen.toNat) ++
      ((closingChunks ctx.xmlBomState).flatMap plpPiece ++ leBytes 4 0)) := by
  rw [closeValue, if_neg (by simp [hnull])]
  refine (writeValueOpening_emits ctx.valueOpened).bind (Emits.bind ?_ (Emits.u32 0))
  cases ctx.xmlBomState with
  | notXml | written => exact .pure
  | pending held =>
    refine (writePlpPiece_emits utf16Bom).bind ?_
    split
    · simpa using writePlpPiece_emits held
    · exact .pure

/-- What closing a value adds completes it. -/
theorem Progress.closing (h : Progress isXml ctx accepted false chunks) :
    ClosedValue isXml accepted false
      (plpEncoding (chunks ++ closingChunks ctx.xmlBomState)) := by
  have hbom := h.bom
  cases hstate : ctx.xmlBomState with
  | notXml =>
    rw [hstate] at hbom
    have hdone : ClosedValue isXml accepted false (plpEncoding chunks) :=
      .chunks h.nonempty h.bounded (by rw [hbom.1, hbom.2]; rfl)
    simpa [closingChunks] using hdone
  | written =>
    rw [hstate] at hbom
    have hdone : ClosedValue isXml accepted false (plpEncoding chunks) :=
      .chunks h.nonempty h.bounded (by rw [hbom.1, hbom.2.2])
    simpa [closingChunks] using hdone
  | pending held =>
    rw [hstate] at hbom
    obtain ⟨rfl, rfl, rfl, hlen⟩ := hbom
    have hmem (chunk : List UInt8) (hc : chunk ∈ closingChunks (.pending accepted.flatten)) :
        chunk ≠ [] ∧ chunk.length ≤ 2 := by
      simp only [closingChunks, mem_append, mem_singleton, mem_ite_nil_right] at hc
      rcases hc with rfl | ⟨hne, rfl⟩
      · exact ⟨by decide, by decide⟩
      · exact ⟨hne, by omega⟩
    rw [nil_append]
    refine .chunks (fun chunk hc => (hmem chunk hc).1)
      (fun bound htwo _ chunk hc => (hmem chunk hc).2.trans htwo) ?_
    -- fewer than two bytes are no mark
    have hnomark : accepted.flatten.take 2 ≠ utf16Bom := by
      intro htake
      have := congrArg List.length htake
      rw [length_take, utf16Bom] at this
      simp only [length_cons, length_nil] at this
      omega
    rw [streamedValue, if_pos rfl, if_neg hnomark, closingChunks, flatten_append,
      flatten_singleton]
    by_cases hnil : accepted.flatten = []
    · rw [if_neg (not_not.mpr hnil), hnil]
      rfl
    · rw [if_pos hnil, flatten_singleton]

theorem Progress.plpEncoding_eq (h : Progress isXml ctx accepted false chunks) :
    openedBytes chunks ++ ((if ctx.valueOpened then [] else leBytes 8 plpUnknownLen.toNat) ++
        ((closingChunks ctx.xmlBomState).flatMap plpPiece ++ leBytes 4 0)) =
      plpEncoding (chunks ++ closingChunks ctx.xmlBomState) := by
  by_cases hchunks : chunks = []
  · have hclosed : ctx.valueOpened = false := by simpa [hchunks] using h.opened
    simp [openedBytes, plpEncoding, hchunks, hclosed]
  · simp [openedBytes, plpEncoding, hchunks, h.opened.mpr hchunks]

theorem closeValue_emits (h : Progress isXml ctx accepted nulled chunks) :
    ∃ bs, Emits (closeValue ctx) bs ∧
      ClosedValue isXml accepted nulled (openedBytes chunks ++ bs) := by
  cases nulled with
  | true =>
    have hchunks : chunks = [] := by
      by_contra hne
      exact absurd (h.nulled_eq_false (.inl (h.opened.mpr hne))) (by simp)
    refine ⟨leBytes 8 plpNull.toNat, ?_, ?_⟩
    · rw [closeValue, if_pos h.null_eq]
      exact Emits.u64 plpNull
    · rw [openedBytes, if_pos hchunks]
      exact .null
  | false =>
    refine ⟨_, closeValue_chunks_emits ctx h.null_eq, ?_⟩
    rw [h.plpEncoding_eq]
    exact h.closing

/-- Both readers decode a finished value of readable size. -/
theorem ClosedValue.readersDecode {value : List UInt8} (h : ClosedValue isXml accepted nulled value)
    (hsize : nulled = false → ∀ bytes ∈ accepted, bytes.length ≤ maxPlpChunkSize)
    (htotal : nulled = false →
      (streamedValue isXml accepted.flatten).length ≤ maxPlpSize) :
    ReadersDecode value
      (if nulled then none else some (streamedValue isXml accepted.flatten)) := by
  cases h with
  | null => exact readers_read_plpNull
  | chunks hne hbounded hflat =>
    rw [← hflat]
    exact readers_read_plpEncoding hne
      (hbounded maxPlpChunkSize (by decide) (hsize rfl)) (hflat ▸ htotal rfl)

end

/-! ### From one parameter to the next -/

/-- A streamed parameter of type `sqlType` is open and no call was made on it yet. -/
structure OpenParam (c : StreamClient) (ctx : StreamedWriteContext) (sqlType : StreamedSqlType) :
    Prop where
  active : c.streamedWriteState = .active ctx
  ready : Ready (resume ctx.message c.network)
  token : c.tokenCancelled = false
  valueOpened : ctx.valueOpened = false
  nullSignaled : ctx.nullSignaled = false
  xmlBomState : ctx.xmlBomState = if sqlType.isXml then .pending [] else .notXml
  pending : ∀ p ∈ ctx.pending, ∃ name sqlType, Streamable p name sqlType

theorem OpenParam.streaming (h : OpenParam c ctx sqlType) :
    Streaming ctx sqlType.isXml c.payload c ctx [] false [] where
  active := h.active
  ready := h.ready
  token := h.token
  payload := by simp [openedBytes]
  request := ⟨rfl, rfl, rfl, rfl⟩
  progress :=
    { null_eq := h.nullSignaled
      untouched := fun _ => rfl
      opened := by simp [h.valueOpened]
      nonempty := fun _ hmem => absurd hmem not_mem_nil
      bounded := fun _ _ _ _ hmem => absurd hmem not_mem_nil
      bom := by
        rw [h.xmlBomState]
        cases sqlType.isXml <;> simp [BomHolds] }

/-- After the closing call: `bytes` are written, and then the message is finished or the next
parameter is open behind its header. -/
inductive Advanced (ctx : StreamedWriteContext) (bytes : List UInt8) :
    StreamedParamStatus → StreamClient → Prop
  | finished {c : StreamClient} (last : ctx.pending = [])
      (idle : c.streamedWriteState = .idle) (payload : c.payload = bytes) :
      Advanced ctx bytes .complete c
  | next {c : StreamClient} {ctx' : StreamedWriteContext} {p : RpcParameter} {name : List Char}
      {sqlType : StreamedSqlType} (header : Streamable p name sqlType)
      (opened : OpenParam c ctx' sqlType) (pending : ctx.pending = p :: ctx'.pending)
      (payload : c.payload = bytes ++
        streamedHeader ctx.dbCollation (ctx.valueBinding = .byOrdinal) p name sqlType) :
      Advanced ctx bytes (.needData p.name) c

section

variable (cs : Codecs) (serializeTable : TvpTypeName → Option TvpTableData → WriterM Unit)

theorem forParam_streamable
    (h : Streamable p name sqlType) :
    StreamedXmlBomState.forParam p = if sqlType.isXml then .pending [] else .notXml := by
  rw [StreamedXmlBomState.forParam, h.value_eq]
  cases sqlType <;> rfl

/-- The call that starts a request leaves its first streamed parameter open. -/
theorem startStreamedRpc_open {rpc : SqlRpc} {first : RpcParameter} {pending : List RpcParameter}
    (timeoutSec : Option ℕ)
    (cancelHandle : Option CancelHandle) (prepared : Bool)
    (hnet : 16 ≤ c.network.packetSize ∧ c.network.packetSize < 2 ^ 31)
    (hsends : ∀ k, (c.network.env k).Succeeds) (htoken : c.tokenCancelled = false)
    (hopening : Emits (rpc.serializePrefix cs serializeTable) bs)
    (hfirst : Streamable first name sqlType)
    (hpending : ∀ p ∈ pending, ∃ name sqlType, Streamable p name sqlType) :
    ∃ c' ctx, startStreamedRpc cs serializeTable retract rpc first pending timeoutSec cancelHandle
        prepared c = .ok (.needData first.name) c' ∧
      OpenParam c' ctx sqlType ∧ ctx.pending = pending ∧ ctx.prepared = prepared := by
  have hwriter := new_ready .rpcRequest timeoutSec cancelHandle hnet.1 hnet.2 hsends
  obtain ⟨w, ps, hrun, hready, -⟩ := (hopening.bind (serialize_streamed_emits cs serializeTable
    rpc.dbCollation (rpc.valueBinding = .byOrdinal) hfirst)) _ hwriter
  let ctx : StreamedWriteContext :=
    { message := w.suspend
      pending
      dbCollation := rpc.dbCollation
      valueBinding := rpc.valueBinding
      valueOpened := false
      xmlBomState := .forParam first
      nullSignaled := false
      prepared }
  let c' : StreamClient := { c with network := w.network, streamedWriteState := .active ctx }
  refine ⟨c', ctx, ?_, ?_, rfl, rfl⟩
  · simp only [startStreamedRpc, hrun]
    rfl
  · exact ⟨rfl, hready, htoken, rfl, rfl, forParam_streamable hfirst, hpending⟩

/-- Closing a parameter in front of another one. -/
theorem end_next (hactive : c.streamedWriteState = .active ctx)
    (hready : Ready (resume ctx.message c.network)) (htoken : c.tokenCancelled = false)
    (hclose : Emits (closeValue ctx) bs) {rest : List RpcParameter}
    (hpending : ctx.pending = p :: rest)
    (hall : ∀ p ∈ ctx.pending, ∃ name sqlType, Streamable p name sqlType) :
    ∃ status c', endStreamedParam cs serializeTable retract ctx.prepared c = .ok status c' ∧
      Advanced ctx (c.payload ++ bs) status c' := by
  obtain ⟨name, sqlType, hp⟩ := hall p (by simp [hpending])
  have hwrite : Emits (closeAndAdvance cs serializeTable ctx) (bs ++
      streamedHeader ctx.dbCollation (ctx.valueBinding = .byOrdinal) p name sqlType) := by
    rw [closeAndAdvance, hpending]
    exact hclose.bind (serialize_streamed_emits cs serializeTable _ _ hp)
  obtain ⟨w', hrun, hready', hout⟩ := resumeMessage_emits retract hready htoken hwrite
  let ctx' : StreamedWriteContext := { ctx with
    message := w'.suspend
    pending := rest
    valueOpened := false
    xmlBomState := .forParam p
    nullSignaled := false }
  let c' : StreamClient := { c with network := w'.network, streamedWriteState := .active ctx' }
  have hend : endStreamedParam cs serializeTable retract ctx.prepared c
      = .ok (.needData p.name) c' := by
    have hget : endStreamedParam cs serializeTable retract ctx.prepared c = _ :=
      bind_ok get_apply
    rw [hactive] at hget
    dsimp only at hget
    rw [if_neg (not_not.mpr rfl), bind_ok hrun, hpending] at hget
    exact hget
  have hopened : OpenParam c' ctx' sqlType := ⟨rfl, hready', htoken, rfl, rfl,
    forParam_streamable hp, fun q hq => hall q (by rw [hpending]; exact mem_cons_of_mem p hq)⟩
  refine ⟨_, c', hend, .next hp hopened hpending ?_⟩
  rw [payload_of_active hactive, append_assoc, ← hout]
  rfl

/-- Closing the last parameter. -/
theorem end_last (hactive : c.streamedWriteState = .active ctx)
    (hready : Ready (resume ctx.message c.network)) (htoken : c.tokenCancelled = false)
    (hclose : Emits (closeValue ctx) bs) (hpending : ctx.pending = []) :
    ∃ status c', endStreamedParam cs serializeTable retract ctx.prepared c = .ok status c' ∧
      Advanced ctx (c.payload ++ bs) status c' := by
  obtain ⟨w₁, ps, hvalue, hready₁, hsteps⟩ := hclose _ hready
  obtain ⟨w', hfinalize, hsent⟩ := finalize_sentPayload hready₁
  have hwrite : closeAndAdvance cs serializeTable ctx (resume ctx.message c.network)
      = .ok () w' := by
    rw [closeAndAdvance, bind_ok hvalue, hpending]
    exact hfinalize
  have hrun := resumeMessage_of_ok retract htoken hwrite
  let c' : StreamClient := { c with network := w'.network, streamedWriteState := .idle }
  have hend : endStreamedParam cs serializeTable retract ctx.prepared c = .ok .complete c' := by
    have hget : endStreamedParam cs serializeTable retract ctx.prepared c = _ :=
      bind_ok get_apply
    rw [hactive] at hget
    dsimp only at hget
    rw [if_neg (not_not.mpr rfl), bind_ok hrun, hpending] at hget
    exact hget
  refine ⟨_, c', hend, .finished hpending rfl ?_⟩
  rw [payload_of_active hactive, ← outgoing_of_steps hsteps, outgoing, ← hsent]
  rfl

/-- Whatever calls are made on an open streamed parameter, every one is accepted or changes
nothing, and the closing one leaves the value behind the header: `NULL` if the parameter was marked
so, else the accepted chunks in order, for XML behind one byte order mark.  The readers decode it
if no chunk and no value is longer than they allow. -/
theorem streamed_value_delivered {sqlType : StreamedSqlType} (hopen : OpenParam c ctx sqlType)
    (calls : List Call) (hcalls : ∀ call ∈ calls, call ≠ .endParam ctx.prepared) :
    (∀ before call after, calls = before ++ call :: after →
      AcceptedOrRejected (perform cs serializeTable retract call)
        (performAll cs serializeTable retract before c).2) ∧
    ∃ value status c',
      endStreamedParam cs serializeTable retract ctx.prepared
        (performAll cs serializeTable retract calls c).2 = .ok status c' ∧
      Advanced ctx (c.payload ++ value) status c' ∧
      ClosedValue sqlType.isXml (acceptedChunks (performAll cs serializeTable retract calls c).1)
        (nullAccepted (performAll cs serializeTable retract calls c).1) value ∧
      (nullAccepted (performAll cs serializeTable retract calls c).1 = true →
        ReadersDecode value none) ∧
      (nullAccepted (performAll cs serializeTable retract calls c).1 = false →
        (∀ bytes ∈ acceptedChunks (performAll cs serializeTable retract calls c).1,
          bytes.length ≤ maxPlpChunkSize) →
        (streamedValue sqlType.isXml
          (acceptedChunks (performAll cs serializeTable retract calls c).1).flatten).length
            ≤ maxPlpSize →
        ReadersDecode value (some (streamedValue sqlType.isXml
          (acceptedChunks (performAll cs serializeTable retract calls c).1).flatten))) := by
  have hstart := hopen.streaming
  refine ⟨?_, ?_⟩
  · rintro before call after rfl
    exact performAll_rejected retract cs serializeTable before after call hstart hcalls
  obtain ⟨ctx', chunks, hrun⟩ := performAll_progress retract cs serializeTable calls hstart hcalls
  rw [nil_append, Bool.false_or] at hrun
  generalize performAll cs serializeTable retract calls c = run at hrun ⊢
  obtain ⟨results, c₁⟩ := run
  obtain ⟨bs, hclose, hclosed⟩ := closeValue_emits hrun.progress
  have hadvance : ∃ status c', endStreamedParam cs serializeTable retract ctx'.prepared c₁
      = .ok status c' ∧ Advanced ctx' (c₁.payload ++ bs) status c' := by
    cases hpending : ctx'.pending with
    | nil =>
      exact end_last retract cs serializeTable hrun.active hrun.ready hrun.token hclose hpending
    | cons p rest =>
      exact end_next retract cs serializeTable hrun.active hrun.ready hrun.token hclose hpending
        (by rw [hrun.request.pending]; exact hopen.pending)
  obtain ⟨status, c', hend, hadvanced⟩ := hadvance
  refine ⟨openedBytes chunks ++ bs, status, c', ?_, ?_, hclosed, ?_, ?_⟩
  · rwa [hrun.request.prepared] at hend
  · rw [hrun.payload, append_assoc] at hadvanced
    cases hadvanced with
    | finished hlast hidle hpayload =>
      exact .finished (by rw [← hrun.request.pending, hlast]) hidle hpayload
    | next hp hopened hpending hpayload =>
      refine .next hp hopened (by rw [← hrun.request.pending, hpending]) ?_
      rw [hpayload, hrun.request.dbCollation, hrun.request.valueBinding]
  · intro hnull
    have hread := hclosed.readersDecode (by simp [hnull]) (by simp [hnull])
    rwa [if_pos hnull] at hread
  · intro hnull hsize htotal
    have hread := hclosed.readersDecode (fun _ => hsize) (fun _ => htotal)
    rwa [if_neg (by simp [hnull])] at hread

/-- A call of a procedure by id with nothing but streamed parameters. -/
def streamedRpc (proc : RpcProcs) (transaction : UInt64) : SqlRpc where
  headers := [.transactionDescriptor transaction 1]
  rpcType := .procId proc
  positionalParameters := none
  namedParameters := none
  dbCollation := .default
  procOptions := 0
  valueBinding := .byName

theorem streamedRpc_prefix_emits (proc : RpcProcs) (transaction : UInt64) :
    ∃ bs, Emits ((streamedRpc proc transaction).serializePrefix cs serializeTable) bs := by
  have hheaders : Emits (writeHeaders [.transactionDescriptor transaction 1]) _ :=
    (Emits.i32 _).bind (((Emits.i32 18).bind ((Emits.u16 2).bind
      ((Emits.u64 transaction).bind (Emits.u32 1)))).bind Emits.pure)
  exact ⟨_, Emits.pure.bind (hheaders.bind
    ((Emits.fixedBytes ((streamedRpc proc transaction).procIdBytes proc)).bind
      (Emits.pure.bind Emits.pure)))⟩

/-- An idle client on a network that sends everything. -/
def readyClient : StreamClient := ⟨readyNetwork 512, .idle, false⟩

theorem readyClient_open (hvalid : sqlType.validate = .ok ()) :
    ∃ c ctx, startStreamedRpc cs serializeTable retract (streamedRpc .executeSql 0)
        (.dataAtExec (some ['@', 'p']) 0 sqlType) [] none none false readyClient
          = .ok (.needData (some ['@', 'p'])) c ∧
      OpenParam c ctx sqlType ∧ ctx.pending = [] ∧ ctx.prepared = false := by
  obtain ⟨bs, hopening⟩ := streamedRpc_prefix_emits cs serializeTable .executeSql 0
  exact startStreamedRpc_open retract cs serializeTable none none false ⟨by decide, by decide⟩
    (fun _ => SendEnv.ready_succeeds) rfl hopening ⟨rfl, rfl, hvalid, rfl, rfl⟩
    (fun p hp => absurd hp not_mem_nil)

end

/-- An XML value in pieces that cut its byte order mark, with rejected calls in between. -/
def xmlCalls : List Call :=
  [.chunk [0xFF], .endParam true, .null, .chunk [], .chunk [0xFE, 0x3C], .null, .chunk [0x00]]

theorem streamed_value_delivered_xml :
    ∃ c ctx, OpenParam c ctx .xml ∧
      (∀ call ∈ xmlCalls, call ≠ .endParam ctx.prepared) ∧
      ∃ value status c',
        endStreamedParam .latin1 (fun _ _ => pure ()) (fun _ c => c) ctx.prepared
          (performAll .latin1 (fun _ _ => pure ()) (fun _ c => c) xmlCalls c).2
            = .ok status c' ∧
        Advanced ctx (c.payload ++ value) status c' := by
  obtain ⟨c, ctx, -, hopen, -, hprepared⟩ :=
    readyClient_open (fun _ c => c) .latin1 (fun _ _ => pure ()) (show StreamedSqlType.xml.validate
      = .ok () from rfl)
  have hcalls : ∀ call ∈ xmlCalls, call ≠ .endParam ctx.prepared := by
    rw [hprepared]
    decide
  obtain ⟨-, value, status, c', hend, hadvanced, -⟩ :=
    streamed_value_delivered (fun _ c => c) .latin1 (fun _ _ => pure ()) hopen xmlCalls hcalls
  exact ⟨c, ctx, hopen, hcalls, value, status, c', hend, hadvanced⟩

/-- The writer accepts a chunk that is one byte longer than the readers allow. -/
theorem streamed_chunk_unreadable :
    ∃ c ctx c₁ c₂ value, OpenParam c ctx .varBinaryMax ∧
      writeStreamedChunk (fun _ c => c) (List.replicate (maxPlpChunkSize + 1) 0) c = .ok () c₁ ∧
      endStreamedParam .latin1 (fun _ _ => pure ()) (fun _ c => c) ctx.prepared c₁
        = .ok .complete c₂ ∧
      c₂.payload = c.payload ++ value ∧ ∀ r, readPlpBytes value ≠ .ok r := by
  obtain ⟨c, ctx, -, hopen, hlast, -⟩ :=
    readyClient_open (fun _ c => c) .latin1 (fun _ _ => pure ())
      (show StreamedSqlType.varBinaryMax.validate = .ok () from rfl)
  have hlen : (List.replicate (maxPlpChunkSize + 1) (0 : UInt8)).length = maxPlpChunkSize + 1 :=
    length_replicate
  have hle : (List.replicate (maxPlpChunkSize + 1) (0 : UInt8)).length ≤ 0xFFFFFFFF := by
    rw [hlen]
    decide
  have hne : List.replicate (maxPlpChunkSize + 1) (0 : UInt8) ≠ [] :=
    ne_nil_of_length_pos (by rw [hlen]; exact Nat.succ_pos _)
  have hlong : maxPlpChunkSize < (List.replicate (maxPlpChunkSize + 1) (0 : UInt8)).length := by
    rw [hlen]
    exact Nat.lt_succ_self _
  generalize List.replicate (maxPlpChunkSize + 1) (0 : UInt8) = chunk at *
  obtain ⟨c₁, ctx₁, hchunk, hstreaming⟩ :=
    chunk_accepted (fun _ c => c) hopen.streaming hle hne
  have hstate : ctx₁.xmlBomState = .notXml := by
    have hbom := hstreaming.progress.bom
    cases hstate : ctx₁.xmlBomState with
    | notXml => rfl
    | _ =>
      rw [hstate] at hbom
      exact absurd hbom.1 (by decide)
  obtain ⟨status, c₂, hend, hadvanced⟩ := end_last (fun _ c => c) .latin1 (fun _ _ => pure ())
    hstreaming.active hstreaming.ready hstreaming.token
    (closeValue_chunks_emits ctx₁ hstreaming.progress.null_eq)
    (by rw [hstreaming.request.pending, hlast])
  have hvalue := hstreaming.progress.plpEncoding_eq
  rw [hstate] at hvalue
  rw [hstreaming.payload, append_assoc, hstate, hvalue] at hadvanced
  rw [hstreaming.request.prepared] at hend
  cases hadvanced with
  | finished _ _ hpayload =>
    refine ⟨c, ctx, c₁, c₂, plpEncoding [chunk], hopen, hchunk, hend, hpayload, fun r => ?_⟩
    rw [plpEncoding, flatMap_singleton, plpPiece, append_assoc]
    exact readPlpBytes_oversized hlong (Nat.lt_succ_of_le hle) r
  | next _ _ hpending _ =>
    rw [hstreaming.request.pending, hlast] at hpending
    cases hpending

end StreamClient

end MssqlTds
