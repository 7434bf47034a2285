import MssqlTds.Datatypes.SerializerFormat
import MssqlTds.Message.Rpc

/-!
# Encrypted parameters on the wire

An encrypted parameter goes out as its ciphertext, the type of its plaintext, and the description of
the key.  Nothing else of the plaintext is sent: `serialize_writesSame` compares two parameters that
differ in nothing but their plaintext.  A batched execution does not write an encrypted parameter
straight into the packet (`inlineCommand_of_encrypted`), so there is no second path.
-/

namespace MssqlTds

open Bytes Unicode PacketWriter

/-- Both write the same bytes, or both fail in the same way. -/
def WritesSame (m₁ m₂ : WriterM Unit) : Prop :=
  (∃ bs, Emits m₁ bs ∧ Emits m₂ bs) ∨
    ∃ error, ∀ w, Ready w → ∃ w', m₁ w = .error error w' ∧ m₂ w = .error error w'

/-- The parameters carry the same ciphertext and metadata, and agree on name, status flags and the
type of the plaintext. -/
structure SamePublicPart (cs : Codecs) (dbCollation : SqlCollation) (p q : RpcParameter) :
    Prop where
  name : p.name = q.name
  options : p.options = q.options
  encrypted : ∃ e e', p.encrypted = some e ∧ q.encrypted = some e' ∧
    e.ciphertext = e'.ciphertext ∧ e.metadata = e'.metadata
  typeInfo : ∃ bs, Emits (p.writeEncryptedBaseType cs dbCollation) bs ∧
    Emits (q.writeEncryptedBaseType cs dbCollation) bs

namespace RpcParameter

variable {cs : Codecs} {dbCollation : SqlCollation} {p q : RpcParameter} {e e' : EncryptedRpcValue}

def encryptedName (name : Option (List Char)) (isPositional : Bool) : WriterM Unit :=
  if isPositional then writeByteAsync 0
  else match name with
    | some name => do
      liftResult (validateNameLength name)
      writeByteAsync (UInt8.ofNat (asBytes name).length)
      writeStringUnicodeAsync name
    | none => throw (.panic
        "Parameter name is None for a non-positional parameter. Unexpected implemetation path")

/-- What precedes the type of the plaintext. -/
def encryptedOpening (name : Option (List Char)) (options : UInt8)
    (ciphertext : Option (List UInt8)) (isPositional : Bool) : WriterM Unit := do
  encryptedName name isPositional
  writeByteAsync (options ||| statusEncrypted)
  writeByteAsync TdsDataType.bigVarBinary.code
  writeEncryptedValue ciphertext

theorem exists_serializes_writeEncryptedValue (value : Option (List UInt8)) :
    ∃ r, Serializes (writeEncryptedValue value) r := by
  cases value with
  | none => exact ⟨.ok _, (Emits.u16 _).bind (Emits.checked (by simp))⟩
  | some bytes =>
    unfold writeEncryptedValue
    by_cases hshort : bytes.length ≤ shortVartypeMaxBytes
    · simp only [Option.getD_some, hshort, if_true]
      exact ⟨.ok _, (Emits.u16 _).bind ((Emits.u16 _).bind
        (emits_ite (Emits.slice _) Emits.pure))⟩
    · simp only [Option.getD_some, hshort, if_false]
      by_cases hlong : bytes.length > 0xFFFFFFFF
      · simp only [hlong, if_true]
        exact ⟨_, Serializes.after (Emits.u16 _) (Serializes.throw _)⟩
      · simp only [hlong, if_false]
        exact ⟨.ok _, (Emits.u16 _).bind ((Emits.u64 _).bind
          ((Emits.u32 _).bind ((Emits.slice _).bind (Emits.u32 _))))⟩

theorem exists_serializes_encryptedOpening (name : Option (List Char)) (options : UInt8)
    (ciphertext : Option (List UInt8)) (isPositional : Bool) :
    ∃ r, Serializes (encryptedOpening name options ciphertext isPositional) r := by
  have hname : ∃ r, Serializes (encryptedName name isPositional) r := by
    cases isPositional with
    | true => exact ⟨.ok [0], Emits.byte 0⟩
    | false => cases name with
      | none => exact ⟨_, Serializes.throw _⟩
      | some name =>
        have hrest : Serializes (writeByteAsync (UInt8.ofNat (asBytes name).length) >>= fun _ =>
            writeStringUnicodeAsync name) (.ok _) :=
          (Emits.byte _).bind (Emits.string name)
        exact ⟨_, Serializes.lift (validateNameLength name) fun _ _ => hrest⟩
  obtain ⟨r, hr⟩ := hname
  obtain ⟨r', hr'⟩ := exists_serializes_writeEncryptedValue ciphertext
  exact ⟨_, hr.seq (Serializes.after (Emits.byte _)
    (Serializes.after (Emits.byte _) hr'))⟩

/-- The type of the plaintext of a streamed parameter is never written. -/
theorem not_emits_of_streamed {sqlType : StreamedSqlType} {bs : List UInt8}
    (hvalue : p.value = .streamed sqlType) :
    ¬ Emits (p.writeEncryptedBaseType cs dbCollation) bs := by
  intro h
  have hready : Ready (PacketWriter.new .tabularResult (readyNetwork 4096) none none) :=
    new_ready _ none none (by decide) (by decide) fun _ => SendEnv.ready_succeeds
  obtain ⟨w', payloads, hrun, -⟩ := h _ hready
  unfold writeEncryptedBaseType at hrun
  rw [hvalue] at hrun
  cases hrun

/-- An encrypted parameter is written in three parts, of which only the middle one looks at the
plaintext. -/
theorem serialize_encrypted (serializeTable : TvpTypeName → Option TvpTableData → WriterM Unit)
    (isPositional : Bool) {value : SqlType} (hvalue : p.value = .materialized value)
    (hencrypted : p.encrypted = some e) :
    p.serialize cs serializeTable dbCollation isPositional =
      (encryptedOpening p.name p.options e.ciphertext isPositional >>= fun _ =>
        p.writeEncryptedBaseType cs dbCollation >>= fun _ =>
          writeCryptoMetadata e.metadata >>= fun _ =>
            if e.hadConversionLoss then noteCodePageConversionLoss else pure ()) := by
  have hname : p.writeName isPositional = encryptedName p.name isPositional := by
    unfold writeName optionsWritten
    rw [hvalue, hencrypted]
    rfl
  unfold serialize encryptedOpening writeEncrypted
  rw [hname, hvalue, hencrypted]
  simp only [bind_assoc]

theorem writeCryptoMetadata_emits (metadata : RpcEncryptionMetadata) :
    ∃ bs, Emits (writeCryptoMetadata metadata) bs :=
  ⟨_, (Emits.byte _).bind ((Emits.byte _).bind ((Emits.i32 _).bind
    ((Emits.i32 _).bind ((Emits.i32 _).bind ((Emits.slice _).bind
      (Emits.byte _))))))⟩

/-- **The plaintext does not reach the wire.** -/
theorem serialize_writesSame (serializeTable : TvpTypeName → Option TvpTableData → WriterM Unit)
    (isPositional : Bool) (h : SamePublicPart cs dbCollation p q) :
    WritesSame (p.serialize cs serializeTable dbCollation isPositional)
      (q.serialize cs serializeTable dbCollation isPositional) := by
  obtain ⟨e, e', hp, hq, hciphertext, hmetadata⟩ := h.encrypted
  obtain ⟨typeInfo, hpType, hqType⟩ := h.typeInfo
  cases hpValue : p.value with
  | streamed sqlType => exact absurd hpType (not_emits_of_streamed hpValue)
  | materialized value =>
    cases hqValue : q.value with
    | streamed sqlType => exact absurd hqType (not_emits_of_streamed hqValue)
    | materialized value' =>
      rw [serialize_encrypted serializeTable isPositional hpValue hp,
        serialize_encrypted serializeTable isPositional hqValue hq, ← h.name, ← h.options,
        ← hciphertext, ← hmetadata]
      obtain ⟨r, hopening⟩ :=
        exists_serializes_encryptedOpening p.name p.options e.ciphertext isPositional
      cases r with
      | error error =>
        refine .inr ⟨error, fun w hw => ?_⟩
        obtain ⟨w', hrun⟩ := hopening w hw
        exact ⟨w', EState.bind_error hrun, EState.bind_error hrun⟩
      | ok bs =>
        obtain ⟨metadata, hmeta⟩ := writeCryptoMetadata_emits e.metadata
        exact .inl ⟨_, Emits.bind hopening (hpType.bind
            (hmeta.bind (noteCodePageConversionLoss_emits e.hadConversionLoss))),
          Emits.bind hopening (hqType.bind
            (hmeta.bind (noteCodePageConversionLoss_emits e'.hadConversionLoss)))⟩

theorem inlineValue_of_encrypted (h : p.encrypted = some e) : p.inlineValue = none := by
  unfold inlineValue
  rw [h]
  cases p.value <;> rfl

end RpcParameter

/-- **A command with an encrypted parameter is not written inline.** -/
theorem SqlRpc.inlineCommand_of_encrypted {rpc : SqlRpc} {p : RpcParameter}
    {e : EncryptedRpcValue} (hencrypted : p.encrypted = some e) {parameters : List RpcParameter}
    (hparameters : rpc.positionalParameters = some parameters) (hp : p ∈ parameters)
    (first : Bool) : rpc.inlineCommand first = none := by
  have hlength : ∀ ps : List RpcParameter, p ∈ ps → inlineLength ps = none := by
    intro ps
    induction ps with
    | nil =>
      intro hmem
      cases hmem
    | cons q ps ih =>
      intro hmem
      rcases List.mem_cons.mp hmem with rfl | hmem
      · have hnone : p.positionalInlineLen = none := by
          rw [RpcParameter.positionalInlineLen, RpcParameter.inlineValue_of_encrypted hencrypted]
          rfl
        rw [inlineLength, hnone]
        rfl
      · rw [inlineLength, ih hmem]
        cases q.positionalInlineLen <;> rfl
  unfold inlineCommand
  rw [hparameters]
  cases rpc.rpcType with
  | procId proc =>
    simp only [hlength parameters hp]
    split <;> rfl
  | _ => rfl

end MssqlTds
