import MssqlTds.Io.InPacket
import MssqlTds.Io.MessageFraming
import MssqlTds.Message.RpcParameters

/-!
# RPC requests and their batches

A batch of prepared executions is one message with a command per row.  Each command after the first
is a delimiter, a procedure and its parameters.  `serializeBatchCommand` writes it through the
checked primitives; `tryWriteBatchCommandWithinPacket` adds up its exact length first and, if it
ends before the packet does, puts it into the buffer unchecked.

* `RpcInlineValue.write_buffers`, `serialize_buffers` : an inline value is the same bytes for both.
* `batchCommand_fastPath` : the fast path leaves the writer alone, or leaves it exactly as
  `serializeBatchCommand` does.
-/

namespace MssqlTds

open Bytes Unicode PacketWriter TdsValueSerializer SqlType Option EState

/-! ### Requests -/

/-- Headers in front of a request. -/
inductive TdsHeaders where
  | transactionDescriptor (transactionDescriptor : UInt64) (outstandingRequestCount : UInt32)
  | traceActivity (id : Vector UInt8 16) (sequenceNumber : Int32)
  | queryNotifications (notificationData : List UInt8)

namespace TdsHeaders

def calculateLength : TdsHeaders → Int32
  | transactionDescriptor .. => 18
  | traceActivity .. => 6 + 16 + 4
  | queryNotifications data => .ofNat (6 + data.length)

def writeAsync : TdsHeaders → WriterM Unit
  | transactionDescriptor descriptor count => do
    writeI32Async 18
    writeU16Async 0x0002
    writeU64Async descriptor
    writeU32Async count
  | traceActivity id sequenceNumber => do
    writeI32Async (6 + 16 + 4)
    writeU16Async 0x0003
    PacketWriter.writeAsync id.toList
    writeI32Async sequenceNumber
  | queryNotifications _ => throw (.panic "QueryNotificationsHeader::write_async")

end TdsHeaders

def writeHeaders (headers : List TdsHeaders) : WriterM Unit := do
  writeI32Async (headers.foldl (fun len header => len + header.calculateLength) 4)
  headers.forM TdsHeaders.writeAsync

/-- The system procedures that have an id. -/
inductive RpcProcs where
  | cursor | cursorOpen | cursorPrepare | cursorExecute | cursorPrepExec | cursorUnprepare
  | cursorFetch | cursorOption | cursorClose | executeSql | prepare | execute | prepExec
  | prepExecRpc | unprepare
  deriving DecidableEq, Repr

def RpcProcs.getU8Value : RpcProcs → UInt8
  | cursor => 1
  | cursorOpen => 2
  | cursorPrepare => 3
  | cursorExecute => 4
  | cursorPrepExec => 5
  | cursorUnprepare => 6
  | cursorFetch => 7
  | cursorOption => 8
  | cursorClose => 9
  | executeSql => 10
  | prepare => 11
  | execute => 12
  | prepExec => 13
  | prepExecRpc => 14
  | unprepare => 15

inductive RpcType where
  | named (procName : List Char)
  | procId (proc : RpcProcs)

/-- How the values among the named parameters are bound. -/
inductive ValueBinding where
  | byName
  | byOrdinal
  deriving DecidableEq, Repr

structure SqlRpc where
  headers : List TdsHeaders
  rpcType : RpcType
  positionalParameters : Option (List RpcParameter)
  namedParameters : Option (List RpcParameter)
  dbCollation : SqlCollation
  procOptions : UInt8
  valueBinding : ValueBinding

def rpcBatchDelimiter : UInt8 := 0xFF

/-- In place of a name's length: a procedure id follows. -/
def procIdSwitch : UInt16 := 0xFFFF

/-- Bytes of a procedure given by its id. -/
def procIdLen : ℕ := 6

def maxProcNameUtf16Units : ℕ := 523

namespace SqlRpc

variable (rpc : SqlRpc) (cs : Codecs)
  (serializeTable : TvpTypeName → Option TvpTableData → WriterM Unit)

/-- A command of a batch; only the first carries the headers. -/
def newBatchCommand (rpcType : RpcType) (positionalParameters namedParameters :
    Option (List RpcParameter)) (dbCollation : SqlCollation) (header : TdsHeaders)
    (first : Bool) : SqlRpc where
  headers := if first then [header] else []
  rpcType
  positionalParameters
  namedParameters
  dbCollation
  procOptions := 0
  valueBinding := .byName

/-- Check every parameter before anything is written. -/
def validateParameters : TdsResult Unit := do
  (rpc.positionalParameters.getD []).forM fun p => p.validateBeforeSend cs rpc.dbCollation
  (rpc.namedParameters.getD []).forM fun p =>
    if p.name = none then .error (.usageError "Named RPC parameters must have a name.")
    else p.validateNamedBeforeSend cs rpc.dbCollation

def procIdBytes (proc : RpcProcs) : List UInt8 :=
  leBytes 2 procIdSwitch.toNat ++ leBytes 2 proc.getU8Value.toNat ++
    leBytes 2 rpc.procOptions.toNat

def writeProc : WriterM Unit :=
  match rpc.rpcType with
  | .named procName =>
    if (utf16Units procName).length > maxProcNameUtf16Units then
      throw (.usageError
        s!"RPC procedure name exceeds {maxProcNameUtf16Units} UTF-16 code units.")
    else do
      writeU16Async (UInt16.ofNat (utf16Units procName).length)
      writeStringUnicodeAsync procName
      writeI16Async (Int16.ofNat rpc.procOptions.toNat)
  | .procId proc => writeFixedBytes (rpc.procIdBytes proc)

def writePositionalParameters : WriterM Unit :=
  (rpc.positionalParameters.getD []).forM fun p =>
    p.serialize cs serializeTable rpc.dbCollation true

def writeNamedParameters : WriterM Unit :=
  (rpc.namedParameters.getD []).forM fun p =>
    p.serialize cs serializeTable rpc.dbCollation (rpc.valueBinding = .byOrdinal)

/-- Write the request up to its last materialized parameter. -/
def serializePrefix : WriterM Unit := do
  liftResult (rpc.validateParameters cs)
  writeHeaders rpc.headers
  rpc.writeProc
  rpc.writePositionalParameters cs serializeTable
  rpc.writeNamedParameters cs serializeTable

def serializeBatchCommand (first : Bool) : WriterM Unit := do
  liftResult (rpc.validateParameters cs)
  (if first then writeHeaders rpc.headers else writeByteAsync rpcBatchDelimiter)
  rpc.writeProc
  rpc.writePositionalParameters cs serializeTable
  rpc.writeNamedParameters cs serializeTable

def inlineLength : List RpcParameter → Option ℕ
  | [] => some 0
  | p :: ps => do
    let length ← p.positionalInlineLen
    let rest ← inlineLength ps
    pure (length + rest)

/-- The procedure and parameters of a command that can be written inline, with its length. -/
def inlineCommand (first : Bool) : Option (RpcProcs × List RpcParameter × ℕ) :=
  match rpc.rpcType, rpc.positionalParameters with
  | .procId proc, some parameters =>
    if first || rpc.namedParameters.any (· ≠ []) then none
    else (inlineLength parameters).map fun length => (proc, parameters, 1 + procIdLen + length)
  | _, _ => none

/-- Write a command that ends before the packet does, without checks; tells whether it did. -/
def tryWriteBatchCommandWithinPacket (first : Bool) : WriterM Bool :=
  match rpc.inlineCommand first with
  | none => pure false
  | some (proc, parameters, length) => do
    if !(← get).hasSpace (length + 1) then pure false
    else
      liftResult (rpc.validateParameters cs)
      writeUnchecked [rpcBatchDelimiter]
      writeUnchecked (rpc.procIdBytes proc)
      parameters.forM fun p => p.writePositionalInline rpc.dbCollation
      pure true

end SqlRpc

/-! ### Inline values -/

def RpcInlineValue.wire (dbCollation : SqlCollation) : RpcInlineValue → List UInt8
  | int v => [TdsDataType.intN.code, 4] ++
      v.elim [nullLength] fun v => 4 :: leBytes 4 v.toUInt32.toNat
  | bigInt v => [TdsDataType.intN.code, 8] ++
      v.elim [nullLength] fun v => 8 :: leBytes 8 v.toUInt64.toNat
  | nVarchar maxBytes value =>
    collatedTypeInfoBytes TdsDataType.nVarChar.code maxBytes dbCollation ++
      value.elim (leBytes 2 varNull.toNat) fun bytes =>
        leBytes 2 (UInt16.ofNat bytes.length).toNat ++ bytes

namespace RpcInlineValue

theorem length_wire (dbCollation : SqlCollation) (v : RpcInlineValue) :
    (v.wire dbCollation).length = v.encodedLen := by
  rcases v with (_ | v) | (_ | v) | ⟨maxBytes, _ | bytes⟩ <;>
    simp [wire, encodedLen, collatedTypeInfoBytes]
  omega

theorem write_buffers (dbCollation : SqlCollation) (v : RpcInlineValue) :
    Buffers (v.write dbCollation) (v.wire dbCollation) := by
  rcases v with (_ | v) | (_ | v) | ⟨maxBytes, _ | bytes⟩
  on_goal 6 =>
    exact writeUnchecked_buffers.bind (writeUnchecked_buffers.bind writeUnchecked_buffers)
  all_goals exact writeUnchecked_buffers.bind writeUnchecked_buffers

end RpcInlineValue

theorem writeIfSpace_buffers {bs : List UInt8} {slow : WriterM Unit} :
    Buffers (writeIfSpace bs slow) bs := by
  intro w hroom _
  rw [writeIfSpace, bind_ok get_apply, if_pos (hroom.hasSpace (Nat.le_succ _))]
  exact writeUnchecked_apply

section Serializer

variable {cs : Codecs} {serializeTable : TvpTypeName → Option TvpTableData → WriterM Unit}
  {dbCollation : SqlCollation} {typeMetadata : Option SqlType.RpcTypeMetadata}
  {limit : Option ℕ} {chars maxBytes : UInt16}

theorem toNat_le_of_inlineMax
    (h : nvarcharInlineMaxBytes chars = some maxBytes) : maxBytes.toNat ≤ 8000 := by
  unfold nvarcharInlineMaxBytes at h
  split at h
  · cases h
  · next hle =>
    have hchars : chars.toNat ≤ 4000 := by
      exact Nat.not_lt.mp hle
    cases h
    exact Nat.le_trans (Nat.mod_le _ _) (Nat.mul_le_mul_right _ hchars)

theorem beq_maxU16Length_of_inlineMax
    (h : nvarcharInlineMaxBytes chars = some maxBytes) : (maxBytes == maxU16Length) = false := by
  have hle := toNat_le_of_inlineMax h
  rw [beq_eq_false_iff_ne]
  rintro rfl
  simp [maxU16Length] at hle

variable {bytes : List UInt8} {value : SqlString}

theorem inlineStringBytes_eq_some {maxBytes : UInt16}
    (h : inlineStringBytes maxBytes value = some bytes) :
    (value.asUtf16Bytes <|> value.asRawWireBytes) = some bytes ∧ bytes.length % 2 = 0 ∧
      bytes.length ≤ maxBytes.toNat := by
  obtain ⟨raw, hraw, hbound⟩ := bind_eq_some_iff.mp h
  split at hbound
  · cases hbound
  · next hok =>
    cases hbound
    simp only [Bool.or_eq_true, decide_eq_true_eq, not_or, not_not, not_lt] at hok
    exact ⟨hraw, hok⟩

/-- Bytes of whole units within the size of the type are written as they are. -/
theorem serializeStringBytes_buffers {maxSize : ℕ}
    (heven : bytes.length % 2 = 0) (hlen : bytes.length / 2 ≤ maxSize) :
    Buffers
      (serializeStringBytes cs value bytes true
        (stringContext .nVarChar false maxSize dbCollation))
      (leBytes 2 (UInt16.ofNat bytes.length).toNat ++ bytes) := by
  unfold serializeStringBytes
  rw [if_neg (by simp [heven]), if_neg (by simpa using hlen), stringContext_tdsType,
    if_neg (by decide), if_neg (by simp), if_neg (by simp)]
  exact writeChecked_buffers.bind writeAsync_buffers

/-- The value of a wide string that may be sent as it is. -/
theorem serializeString_buffers (limit : Option ℕ)
    (hmax : nvarcharInlineMaxBytes chars = some maxBytes)
    (hbytes : inlineStringBytes maxBytes value = some bytes) :
    Buffers
      (serializeString cs value
        (stringContext .nVarChar (maxBytes == maxU16Length) (maxBytes / 2).toNat
          dbCollation) limit true)
      (leBytes 2 (UInt16.ofNat bytes.length).toNat ++ bytes) := by
  obtain ⟨hraw, heven, hlen⟩ := inlineStringBytes_eq_some hbytes
  have hsize : bytes.length / 2 ≤ (maxBytes / 2).toNat := by
    exact Nat.div_le_div_right hlen
  rw [beq_maxU16Length_of_inlineMax hmax]
  unfold serializeString
  cases hutf16 : value.asUtf16Bytes with
  | some raw =>
    rw [hutf16] at hraw
    cases hraw
    exact serializeStringBytes_buffers heven hsize
  | none =>
    rw [hutf16] at hraw
    change value.asRawWireBytes = some bytes at hraw
    rw [hraw]
    exact serializeStringBytes_buffers heven hsize

theorem serializeNull_buffers {maxSize : ℕ} :
    Buffers (serializeNull (stringContext .nVarChar false maxSize dbCollation))
      (leBytes 2 varNull.toNat) := by
  unfold serializeNull
  exact writeChecked_buffers

/-- A wide string of inline size, up to its value. -/
theorem serialize_nVarchar {v : Option SqlString}
    (hmax : nvarcharInlineMaxBytes chars = some maxBytes) :
    (nVarchar v chars).serializeWithNarrowStringByteLimit cs serializeTable dbCollation
        typeMetadata limit =
      (writeFixedBytes (collatedTypeInfoBytes TdsDataType.nVarChar.code maxBytes
        dbCollation) >>= fun _ =>
      serializeValueInner cs (orNull .string v)
        (stringContext .nVarChar (maxBytes == maxU16Length) (maxBytes / 2).toNat
          dbCollation) limit true) := by
  unfold serializeWithNarrowStringByteLimit writeTypeInfo
    toColumnValueAndContext serializeValueWithNarrowStringByteLimit
  simp only [hmax, getD_some, stringContext_tdsType]
  rfl

/-- A value with an inline form is the same bytes for the serializer. -/
theorem serialize_buffers {value : SqlType} {v : RpcInlineValue} (h : value.rpcInline = some v) :
    Buffers
      (value.serializeWithNarrowStringByteLimit cs serializeTable dbCollation typeMetadata limit)
      (v.wire dbCollation) := by
  unfold rpcInline at h
  split at h
  case h_1 v | h_2 v =>
    cases h
    cases v with
    | none => exact writeFixedBytes_buffers.bind writeChecked_buffers
    | some v => exact writeFixedBytes_buffers.bind writeIfSpace_buffers
  · next value chars =>
    obtain ⟨maxBytes, hmax, hvalue⟩ := bind_eq_some_iff.mp h
    cases value with
    | none =>
      cases hvalue
      rw [serialize_nVarchar hmax, beq_maxU16Length_of_inlineMax hmax]
      exact writeFixedBytes_buffers.bind serializeNull_buffers
    | some value =>
      obtain ⟨bytes, hbytes, hv⟩ := bind_eq_some_iff.mp hvalue
      cases hv
      rw [serialize_nVarchar hmax]
      exact writeFixedBytes_buffers.bind (serializeString_buffers limit hmax hbytes)
  · cases h

/-! ### Inline parameters -/

/-- An empty name, the status byte and the value of an inline parameter. -/
def RpcParameter.inlineWire (dbCollation : SqlCollation) (p : RpcParameter) : List UInt8 :=
  p.inlineValue.elim [] fun v => [0, p.options] ++ v.wire dbCollation

variable {p : RpcParameter} {v : RpcInlineValue}

theorem inlineValue_eq_some (h : p.inlineValue = some v) :
    ∃ value, p.value = .materialized value ∧ p.encrypted = none ∧ value.rpcInline = some v := by
  unfold RpcParameter.inlineValue at h
  split at h
  · next value hvalue hencrypted => exact ⟨value, hvalue, hencrypted, h⟩
  · cases h

theorem inlineWire_eq (h : p.inlineValue = some v) :
    p.inlineWire dbCollation = [0, p.options] ++ v.wire dbCollation := by
  rw [RpcParameter.inlineWire, h, elim_some]

/-- Values with an inline form have nothing that could be rejected. -/
theorem validateForSend_of_inline {value : SqlType} (h : value.rpcInline = some v)
    (columnLimit : Option ℕ) : value.validateForSend cs dbCollation columnLimit = .ok () := by
  cases value <;> first | rfl | cases h

theorem validateBeforeSend_of_inline (h : p.inlineValue = some v) :
    p.validateBeforeSend cs dbCollation = .ok () := by
  obtain ⟨value, hvalue, -, hinline⟩ := inlineValue_eq_some h
  rw [RpcParameter.validateBeforeSend, hvalue]
  exact validateForSend_of_inline hinline _

theorem writePositionalInline_buffers (h : p.inlineValue = some v) :
    Buffers (p.writePositionalInline dbCollation) (p.inlineWire dbCollation) := by
  rw [inlineWire_eq h, RpcParameter.writePositionalInline, h]
  exact writeUnchecked_buffers.bind (v.write_buffers dbCollation)

theorem serialize_positional_buffers (h : p.inlineValue = some v) :
    Buffers (p.serialize cs serializeTable dbCollation true) (p.inlineWire dbCollation) := by
  obtain ⟨value, hvalue, hencrypted, hinline⟩ := inlineValue_eq_some h
  have hwritten : p.optionsWritten true = true := by
    rw [RpcParameter.optionsWritten, hvalue, hencrypted]
  rw [inlineWire_eq h]
  simp only [RpcParameter.serialize, RpcParameter.writeName, hvalue, hencrypted, hwritten, if_true]
  refine writeFixedBytes_buffers.bind ?_
  have hpure : Buffers (pure () >>= fun _ => value.serializeWithNarrowStringByteLimit cs
      serializeTable dbCollation p.typeMetadata p.narrowStringByteLimit)
      ([] ++ v.wire dbCollation) := Buffers.pure.bind (serialize_buffers hinline)
  exact hpure

/-- The length the fast path adds up is the length of what both paths write. -/
theorem inlineLength_eq_some (dbCollation : SqlCollation) {ps : List RpcParameter} {n : ℕ}
    (h : SqlRpc.inlineLength ps = some n) :
    (∀ p ∈ ps, ∃ v, p.inlineValue = some v) ∧
      n = (ps.flatMap (RpcParameter.inlineWire dbCollation)).length := by
  induction ps generalizing n with
  | nil =>
    cases h
    exact ⟨fun _ hp => absurd hp List.not_mem_nil, rfl⟩
  | cons p ps ih =>
    obtain ⟨length, hlength, h⟩ := bind_eq_some_iff.mp h
    obtain ⟨rest, hrest, h⟩ := bind_eq_some_iff.mp h
    obtain ⟨v, hv, rfl⟩ := map_eq_some_iff.mp hlength
    obtain ⟨hall, rfl⟩ := ih hrest
    cases h
    refine ⟨?_, ?_⟩
    · intro q hq
      rcases List.mem_cons.mp hq with rfl | hq
      · exact ⟨v, hv⟩
      · exact hall q hq
    · rw [List.flatMap_cons, List.length_append, inlineWire_eq hv, List.length_append,
        RpcInlineValue.length_wire]
      rfl

end Serializer

/-! ### The two ways to write a command -/

namespace SqlRpc

variable {rpc : SqlRpc} {cs : Codecs} {first : Bool} {proc : RpcProcs}
  {parameters : List RpcParameter} {length : ℕ}

theorem inlineCommand_eq_some (h : rpc.inlineCommand first = some (proc, parameters, length)) :
    rpc.rpcType = .procId proc ∧ rpc.positionalParameters = some parameters ∧ first = false ∧
      rpc.namedParameters.getD [] = [] ∧
      ∃ n, inlineLength parameters = some n ∧ length = 1 + procIdLen + n := by
  unfold inlineCommand at h
  split at h
  · next htype hpositional =>
    split at h
    · cases h
    · next hopen =>
      simp only [Bool.or_eq_true, not_or, Bool.not_eq_true, any_eq_false,
        decide_eq_false_iff_not, not_not] at hopen
      obtain ⟨n, hn, heq⟩ := map_eq_some_iff.mp h
      cases heq
      refine ⟨htype, hpositional, hopen.1, ?_, n, hn, rfl⟩
      cases hnamed : rpc.namedParameters with
      | none => rfl
      | some named => exact hopen.2 named hnamed
  · cases h

/-- A command that is written inline passes its checks. -/
theorem validateParameters_of_inline
    (h : rpc.inlineCommand first = some (proc, parameters, length)) :
    rpc.validateParameters cs = .ok () := by
  obtain ⟨-, hpositional, -, hnamed, n, hn, -⟩ := inlineCommand_eq_some h
  have hall := (inlineLength_eq_some rpc.dbCollation hn).1
  have hvalid : parameters.forM (fun p => p.validateBeforeSend cs rpc.dbCollation) = .ok () :=
    forM_eq_ok_iff.mpr fun p hp => by
      obtain ⟨v, hv⟩ := hall p hp
      exact validateBeforeSend_of_inline hv
  rw [validateParameters, hpositional, hnamed, getD_some, hvalid]
  rfl

/-- The bytes of a command that is written inline. -/
def inlineWire (rpc : SqlRpc) (proc : RpcProcs) (parameters : List RpcParameter) : List UInt8 :=
  [rpcBatchDelimiter] ++
    (rpc.procIdBytes proc ++ parameters.flatMap (RpcParameter.inlineWire rpc.dbCollation))

theorem length_inlineWire (h : rpc.inlineCommand first = some (proc, parameters, length)) :
    (rpc.inlineWire proc parameters).length = length := by
  obtain ⟨-, -, -, -, n, hn, rfl⟩ := inlineCommand_eq_some h
  rw [(inlineLength_eq_some rpc.dbCollation hn).2, inlineWire, List.length_append,
    List.length_append, Nat.add_assoc]
  rfl

variable {w : PacketWriter}

theorem tryWrite_of_inline (h : rpc.inlineCommand first = some (proc, parameters, length))
    (hroom : Roomy w length) :
    rpc.tryWriteBatchCommandWithinPacket cs first w
      = .ok true (w.written (rpc.inlineWire proc parameters)) := by
  obtain ⟨-, -, -, -, n, hn, -⟩ := inlineCommand_eq_some h
  have hparameters : Buffers (parameters.forM fun p => p.writePositionalInline rpc.dbCollation)
      (parameters.flatMap (RpcParameter.inlineWire rpc.dbCollation)) :=
    Buffers.forM fun p hp => by
      obtain ⟨v, hv⟩ := (inlineLength_eq_some rpc.dbCollation hn).1 p hp
      exact writePositionalInline_buffers hv
  rw [← length_inlineWire h, inlineWire, List.length_append, List.length_append] at hroom
  have hspace : w.hasSpace (length + 1) = true := by
    rw [← length_inlineWire h, inlineWire, List.length_append, List.length_append]
    exact hroom.hasSpace (Nat.le_refl _)
  simp only [tryWriteBatchCommandWithinPacket, h, validateParameters_of_inline h]
  rw [bind_ok get_apply, if_neg (by simp [hspace])]
  change (writeUnchecked [rpcBatchDelimiter] >>= fun _ => writeUnchecked (rpc.procIdBytes proc) >>=
    fun _ => (parameters.forM fun p => p.writePositionalInline rpc.dbCollation) >>=
      fun _ => pure true) w = _
  rw [bind_ok writeUnchecked_apply, bind_ok writeUnchecked_apply,
    bind_ok (hparameters _ hroom.written.written reaches_written), inlineWire,
    written_append, written_append]
  rfl

theorem serialize_of_inline (serializeTable : TvpTypeName → Option TvpTableData → WriterM Unit)
    (h : rpc.inlineCommand first = some (proc, parameters, length)) (hroom : Roomy w length) :
    rpc.serializeBatchCommand cs serializeTable first w
      = .ok () (w.written (rpc.inlineWire proc parameters)) := by
  obtain ⟨htype, hpositional, rfl, hnamed, n, hn, -⟩ := inlineCommand_eq_some h
  have hparameters : Buffers (rpc.writePositionalParameters cs serializeTable)
      (parameters.flatMap (RpcParameter.inlineWire rpc.dbCollation)) := by
    rw [writePositionalParameters, hpositional]
    refine .forM fun p hp => ?_
    obtain ⟨v, hv⟩ := (inlineLength_eq_some rpc.dbCollation hn).1 p hp
    exact serialize_positional_buffers hv
  have hnone : rpc.writeNamedParameters cs serializeTable = pure () := by
    rw [writeNamedParameters, hnamed]
    rfl
  have hproc : rpc.writeProc = writeFixedBytes (rpc.procIdBytes proc) := by
    rw [writeProc, htype]
  rw [← length_inlineWire h, inlineWire, List.length_append, List.length_append] at hroom
  have hbyte : Roomy w [rpcBatchDelimiter].length := hroom.mono (Nat.le_add_right _ _)
  have hbehind : Roomy (w.written [rpcBatchDelimiter]) (rpc.procIdBytes proc ++
      parameters.flatMap (RpcParameter.inlineWire rpc.dbCollation)).length := by
    rw [List.length_append]
    exact hroom.written
  -- the delimiter makes the buffer reach up to the position, so the rules apply behind it
  have hrest : Buffers (writeFixedBytes (rpc.procIdBytes proc) >>= fun _ =>
      rpc.writePositionalParameters cs serializeTable >>= fun _ => pure ())
      (rpc.procIdBytes proc ++ parameters.flatMap (RpcParameter.inlineWire rpc.dbCollation)) := by
    have := (@writeFixedBytes_buffers (rpc.procIdBytes proc)).bind (hparameters.bind Buffers.pure)
    rwa [List.append_nil] at this
  rw [serializeBatchCommand, validateParameters_of_inline h, hproc, hnone]
  change (writeByteAsync rpcBatchDelimiter >>= fun _ =>
    writeFixedBytes (rpc.procIdBytes proc) >>= fun _ =>
      rpc.writePositionalParameters cs serializeTable >>= fun _ => pure ()) w = _
  rw [writeByteAsync, bind_ok (writeChecked_roomy hbyte), hrest _ hbehind reaches_written,
    inlineWire, ← written_append]

/-- The fast path leaves the writer alone, or exactly as `serializeBatchCommand` leaves it; no
packet is sent. -/
theorem batchCommand_fastPath (rpc : SqlRpc) (cs : Codecs)
    (serializeTable : TvpTypeName → Option TvpTableData → WriterM Unit) (first : Bool)
    {w : PacketWriter} (hw : InRange w) :
    rpc.tryWriteBatchCommandWithinPacket cs first w = .ok false w ∨
      ∃ w', rpc.tryWriteBatchCommandWithinPacket cs first w = .ok true w' ∧
        rpc.serializeBatchCommand cs serializeTable first w = .ok () w' ∧
        w'.network = w.network := by
  rcases h : rpc.inlineCommand first with _ | ⟨proc, parameters, length⟩
  · left
    rw [tryWriteBatchCommandWithinPacket, h]
    rfl
  · by_cases hspace : w.hasSpace (length + 1) = true
    · have hroom := (hasSpace_succ_iff hw).mp hspace
      exact .inr ⟨_, tryWrite_of_inline h hroom, serialize_of_inline serializeTable h hroom, rfl⟩
    · left
      simp only [tryWriteBatchCommandWithinPacket, h]
      rw [bind_ok get_apply, if_pos (by simpa using hspace)]
      rfl

/-- A second execution of a prepared statement, with an `int` and an `nvarchar(15)`. -/
def secondExecution : SqlRpc :=
  newBatchCommand (.procId .execute)
    (some [.new none 0 (.int (some 42)),
      .new none 0 (.nVarchar (some (.fromUtf8String ['r', 'o', 'w'])) 15)])
    none .default (.transactionDescriptor 0 1) false

/-- A writer in the middle of a packet. -/
def openPacket : PacketWriter :=
  (PacketWriter.new .rpcRequest (readyNetwork 4096) none none).written (List.replicate 100 0)

theorem openPacket_inRange : InRange openPacket := by
  have hpos : openPacket.payloadCursor.pos = 108 := rfl
  exact ⟨by decide, by rw [hpos]; decide⟩

/-- The execution fits behind what the packet has so far. -/
theorem batchCommand_fastPath_secondExecution :
    ∃ w', secondExecution.tryWriteBatchCommandWithinPacket .latin1 false openPacket
        = .ok true w' ∧
      secondExecution.serializeBatchCommand .latin1 (fun _ _ => pure ()) false openPacket
        = .ok () w' ∧
      w'.network = openPacket.network := by
  refine (batchCommand_fastPath secondExecution .latin1 _ false
    openPacket_inRange).resolve_left fun h => ?_
  rw [tryWrite_of_inline rfl ((hasSpace_succ_iff openPacket_inRange).mp rfl)] at h
  cases h

end SqlRpc

end MssqlTds
