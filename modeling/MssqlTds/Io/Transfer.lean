import MssqlTds.Datatypes.SerializerFormat
import MssqlTds.Io.UnicodeReader

/-!
# What one side writes and the other reads

`Transfers m r a` says that whatever the writer `m` sends, the reader `r` takes exactly those bytes
and gets `a`.  The bytes themselves are not named: a format that is written field by field and read
field by field is followed through both programs at once, by `Transfers.bind`.
-/

namespace MssqlTds

open Bytes Unicode Reader PacketWriter

/-- What `m` writes is what `r` reads, and `r` makes `a` of it. -/
def Transfers {α : Type} (m : WriterM Unit) (r : TdsReader α) (a : α) : Prop :=
  ∃ bs, Emits m bs ∧ Reads r bs a

variable {α β γ : Type}

namespace Transfers

variable {m m' : WriterM Unit} {r : TdsReader α} {f : α → TdsReader β} {a : α} {b : β}

theorem pure (a : α) : Transfers (Pure.pure ()) (Pure.pure a) a := ⟨[], Emits.pure, Reads.pure a⟩

theorem bind (h : Transfers m r a) (h' : Transfers m' (f a) b) :
    Transfers (m >>= fun _ => m') (r >>= f) b := by
  obtain ⟨bs, hm, hr⟩ := h
  obtain ⟨cs, hm', hf⟩ := h'
  exact ⟨bs ++ cs, hm.bind hm', hr.bind hf⟩

/-- The reader has nothing left to read. -/
theorem bind_pure (h : Transfers m r a) (hf : f a = Pure.pure b) : Transfers m (r >>= f) b := by
  obtain ⟨bs, hm, hr⟩ := h
  exact ⟨bs, hm, hr.bind_pure hf⟩

theorem map (h : Transfers m r a) (g : α → β) : Transfers m (g <$> r) (g a) := by
  obtain ⟨bs, hm, hr⟩ := h
  exact ⟨bs, hm, hr.map g⟩

/-- The reader starts with a step that reads nothing. -/
theorem skip (h : Transfers m (f a) b) : Transfers m ((Pure.pure a : TdsReader α) >>= f) b := by
  obtain ⟨bs, hm, hr⟩ := h
  exact ⟨bs, hm, fun rest => hr rest⟩

/-- The writer groups two steps that the reader does not group. -/
theorem assoc {m₁ m₂ m₃ : WriterM Unit} (h : Transfers (m₁ >>= fun _ => m₂ >>= fun _ => m₃) r a) :
    Transfers ((m₁ >>= fun _ => m₂) >>= fun _ => m₃) r a := by
  rwa [bind_assoc]

end Transfers

/-! ### Fields -/

theorem transfers_byte (v : UInt8) : Transfers (writeByteAsync v) readByte v :=
  ⟨[v], Emits.byte v, reads_readByte v⟩

theorem transfers_u16 (v : UInt16) : Transfers (writeU16Async v) readUint16 v := by
  have hread := reads_readUint16 v.toNat
  rw [UInt16.ofNat_toNat] at hread
  exact ⟨_, Emits.u16 v, hread⟩

theorem transfers_u32 (v : UInt32) : Transfers (writeU32Async v) readUint32 v := by
  have hread := reads_readUint32 v.toNat
  rw [UInt32.ofNat_toNat] at hread
  exact ⟨_, Emits.u32 v, hread⟩

theorem transfers_i32 (v : Int32) : Transfers (writeI32Async v) readInt32 v :=
  ⟨_, Emits.i32 v, reads_readInt32 v⟩

/-- UTF-16 units, the number of which both sides know. -/
theorem transfers_units (text : String) {n : ℕ} (h : (utf16Units text.toList).length = n) :
    Transfers ((utf16Units text.toList).forM writeU16Async) (readUnicode n) text :=
  ⟨_, Emits.forM_u16 _, reads_readUnicode text h⟩

/-! ### Repetition -/

/-- Items that transfer do so one after the other.  What each of them becomes may be known only up
to a relation. -/
theorem transfers_times {f : γ → WriterM Unit} {r : TdsReader α} {R : γ → α → Prop} {xs : List γ}
    (h : ∀ x ∈ xs, ∃ a, Transfers (f x) r a ∧ R x a) :
    ∃ as, Transfers (xs.forM f) (times r xs.length) as ∧ List.Forall₂ R xs as := by
  induction xs with
  | nil => exact ⟨[], Transfers.pure [], .nil⟩
  | cons x xs ih =>
    obtain ⟨a, ha, hR⟩ := h x List.mem_cons_self
    obtain ⟨as, has, hall⟩ := ih fun y hy => h y (List.mem_cons_of_mem x hy)
    exact ⟨a :: as, ha.bind (has.bind_pure rfl), .cons hR hall⟩

end MssqlTds
