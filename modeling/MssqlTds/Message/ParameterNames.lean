import MssqlTds.Io.PacketStream
import MssqlTds.Io.UnicodeReader
import MssqlTds.Message.RpcParameters

/-!
# The names of RPC parameters

A named parameter starts with its name: a count in one byte, and the name in UTF-16.  The count is
that of the name's UTF-8 bytes, so it is the number of UTF-16 units that follow exactly if the name
is ASCII (`parameter_name_counted_iff`).
-/

namespace MssqlTds

open Bytes Reader Unicode PacketWriter

namespace RpcParameter

variable {p : RpcParameter} {name : List Char}

def statusByte (p : RpcParameter) : UInt8 :=
  match p.encrypted with
  | some _ => p.options ||| statusEncrypted
  | none => p.options

/-- The count that is written in front of a name. -/
def nameCount (name : List Char) : UInt8 := UInt8.ofNat (asBytes name).length

theorem length_le_of_valid (h : validateNameLength name = .ok ()) :
    (asBytes name).length ≤ 255 := by
  unfold validateNameLength at h
  split at h
  · cases h
  · omega

theorem toNat_nameCount (h : validateNameLength name = .ok ()) :
    (nameCount name).toNat = (asBytes name).length := by
  have hle := length_le_of_valid h
  rw [nameCount, UInt8.toNat_ofNat', Nat.mod_eq_of_lt (by omega)]

/-- A name goes out behind its count. -/
theorem writeName_emits (hname : p.name = some name) (hvalid : validateNameLength name = .ok ()) :
    Emits (p.writeName false) (nameCount name :: utf16le name) := by
  simp only [writeName, hname, hvalid, Bool.false_eq_true, if_false]
  exact (Emits.byte _).bind (Emits.string name)

/-- Behind the name comes the status byte; an encrypted parameter cannot be streamed. -/
theorem serialize_named (cs : Codecs)
    (serializeTable : TvpTypeName → Option TvpTableData → WriterM Unit)
    (dbCollation : SqlCollation) (p : RpcParameter) :
    (∃ tail, p.serialize cs serializeTable dbCollation false =
      p.writeName false >>= fun _ => writeByteAsync p.statusByte >>= fun _ => tail) ∨
    ∃ e, p.serialize cs serializeTable dbCollation false =
      p.writeName false >>= fun _ => throw (.usageError e) := by
  obtain ⟨_, options, value, _, _, encrypted, _⟩ := p
  cases value with
  | streamed sqlType =>
    cases encrypted with
    | none => exact .inl ⟨_, rfl⟩
    | some e => exact .inr ⟨_, rfl⟩
  | materialized value =>
    cases encrypted with
    | none => exact .inl ⟨_, rfl⟩
    | some e => exact .inl ⟨_, rfl⟩

/-- A reader recovers a name whose count is that of its units. -/
theorem reads_name (hvalid : validateNameLength name = .ok ())
    (hcount : (nameCount name).toNat = (utf16Units name).length) :
    Reads readVarcharU8Length (nameCount name :: utf16le name) (String.ofList name) := by
  have hle := length_le_of_valid hvalid
  rw [toNat_nameCount hvalid] at hcount
  have htext : (String.ofList name).toList = name := String.toList_ofList
  have hread : Reads readVarcharU8Length (bVarchar (String.ofList name)) (String.ofList name) :=
    reads_readVarcharU8Length (by rw [htext]; omega)
  rwa [bVarchar, htext, ← hcount] at hread

end RpcParameter

open RpcParameter

/-- **The count in front of a name counts what follows exactly if the name is ASCII.**  Then, and
only then, does the reader of a counted string return the name and stop at the status byte. -/
theorem parameter_name_counted_iff (cs : Codecs)
    (serializeTable : TvpTypeName → Option TvpTableData → WriterM Unit)
    (dbCollation : SqlCollation) (p : RpcParameter) (name : List Char)
    (hname : p.name = some name) (hvalid : validateNameLength name = .ok ()) :
    Emits (p.writeName false) (nameCount name :: utf16le name) ∧
    ((∃ tail, p.serialize cs serializeTable dbCollation false =
      p.writeName false >>= fun _ => writeByteAsync p.statusByte >>= fun _ => tail) ∨
    ∃ e, p.serialize cs serializeTable dbCollation false =
      p.writeName false >>= fun _ => throw (.usageError e)) ∧
    ((nameCount name).toNat = (utf16Units name).length ↔ ∀ c ∈ name, c.toNat < 128) ∧
    ((∀ rest, readVarcharU8Length (nameCount name :: utf16le name ++ p.statusByte :: rest) =
        .ok (String.ofList name, p.statusByte :: rest)) ↔
      ∀ c ∈ name, c.toNat < 128) := by
  have hiff : (nameCount name).toNat = (utf16Units name).length ↔ ∀ c ∈ name, c.toNat < 128 := by
    rw [toNat_nameCount hvalid, eq_comm]
    exact length_utf16Units_eq_iff name
  refine ⟨writeName_emits hname hvalid, serialize_named cs serializeTable dbCollation p, hiff, ?_⟩
  rw [← hiff]
  constructor
  · -- the reader has taken two bytes for each unit it counted
    intro h
    obtain ⟨count, q, hcount, htext⟩ := bind_eq_ok.mp (h [])
    have hfirst : readByte (nameCount name :: (utf16le name ++ [p.statusByte])) =
        .ok (nameCount name, utf16le name ++ [p.statusByte]) := reads_readByte _ _
    rw [List.cons_append, hfirst] at hcount
    cases hcount
    obtain ⟨bytes, q', hbytes, htext⟩ := bind_eq_ok.mp htext
    obtain ⟨happend, hlength⟩ := readBytes_eq_ok.mp hbytes
    have hrest : q' = [p.statusByte] := by
      cases htext' : fromUtf16 (ofUnitsLe bytes).1 with
      | none =>
        rw [htext'] at htext
        cases htext
      | some text =>
        rw [htext'] at htext
        exact (Prod.mk.inj (Except.ok.inj htext)).2
    have htotal := congrArg List.length happend
    rw [hrest, List.length_append, List.length_append, hlength, utf16le, length_unitsLe] at htotal
    omega
  · intro hcount rest
    exact reads_name hvalid hcount (p.statusByte :: rest)

/-- The name `@P1`. -/
theorem parameter_name_counted_ascii :
    (nameCount ['@', 'P', '1']).toNat = (utf16Units ['@', 'P', '1']).length :=
  (parameter_name_counted_iff .latin1 (fun _ _ => pure ()) .default
    (.new (some ['@', 'P', '1']) 0 (.int none)) ['@', 'P', '1'] rfl rfl).2.2.1.mpr (by simp)

/-- The name `@é` has two units and a count of three. -/
theorem parameter_name_overcounted :
    validateNameLength ['@', 'é'] = .ok () ∧ (nameCount ['@', 'é']).toNat = 3 ∧
      (utf16Units ['@', 'é']).length = 2 ∧
      readVarcharU8Length (nameCount ['@', 'é'] :: utf16le ['@', 'é'] ++ [0, 0x26, 4, 4]) =
        .ok ("@é☀", [4, 4]) := by
  refine ⟨rfl, rfl, rfl, ?_⟩
  rfl

end MssqlTds
