import MssqlTds.Datatypes.SqlString
import Mathlib.Data.List.Basic

/-!
# Encoding text character by character

The encodings a collation can name keep no state between characters: the bytes of a text are the
bytes of its characters, and encoding fails if it fails for one of them (`Codecs.Stateless`).  For
such an encoding `encodeNarrowWith` replaces exactly the characters that the encoding lacks, and
encodes a text in pieces as it does whole.

UTF-8 and the OEM code pages are stateless (`stateless_of_library`); of the other encodings of the
library it is an assumption.
-/

namespace MssqlTds

open Unicode List

namespace Codecs

variable (cs : Codecs)

/-- The encoding has no bytes for a character. -/
def isUnmappable (encoding : ResolvedEncoding) (c : Char) : Bool := (cs.encode encoding [c]).2.2

/-- The bytes of a character, or its substitutes. -/
def narrowBytes (encoding : ResolvedEncoding) (c : Char) : List UInt8 :=
  if cs.isUnmappable encoding c then substitutes c else (cs.encode encoding [c]).1

/-- An encoding that keeps no state: it is the one used, reports a character it lacks wherever it
stands, and otherwise joins the bytes of the characters. -/
structure Stateless (encoding : ResolvedEncoding) : Prop where
  used : ∀ text, (cs.encode encoding text).2.1 = encoding
  errors : ∀ text, (cs.encode encoding text).2.2 = text.any (cs.isUnmappable encoding)
  bytes : ∀ text, (cs.encode encoding text).2.2 = false →
    (cs.encode encoding text).1 = text.flatMap fun c => (cs.encode encoding [c]).1

variable {cs} {encoding : ResolvedEncoding}

/-- **Every character is encoded or replaced on its own.** -/
theorem Stateless.encodeNarrowWith_eq (h : cs.Stateless encoding) (text : List Char) :
    cs.encodeNarrowWith text encoding
      = ⟨text.flatMap (cs.narrowBytes encoding), text.any (cs.isUnmappable encoding)⟩ := by
  have herrors := h.errors text
  have hused := h.used text
  have hbytes := h.bytes text
  rw [encodeNarrowWith]
  generalize cs.encode encoding text = result at herrors hused hbytes
  obtain ⟨encoded, used, hadErrors⟩ := result
  dsimp only at herrors hused hbytes ⊢
  rw [hused]
  cases hloss : text.any (cs.isUnmappable encoding) with
  | true =>
    rw [herrors, hloss]
    rfl
  | false =>
    have hall : ∀ c ∈ text, cs.narrowBytes encoding c = (cs.encode encoding [c]).1 := by
      intro c hc
      rw [narrowBytes, if_neg (any_eq_false.mp hloss c hc)]
    rw [herrors, hloss, if_pos (show (!false) = true from rfl), hbytes (herrors.trans hloss),
      flatMap_congr hall]

theorem Stateless.encodeNarrowWith_append (h : cs.Stateless encoding) (s t : List Char) :
    cs.encodeNarrowWith (s ++ t) encoding
      = ⟨(cs.encodeNarrowWith s encoding).bytes ++ (cs.encodeNarrowWith t encoding).bytes,
          (cs.encodeNarrowWith s encoding).hadLoss ||
          (cs.encodeNarrowWith t encoding).hadLoss⟩ := by
  simp only [h.encodeNarrowWith_eq, flatMap_append, any_append]

/-! ### Stateless encodings -/

theorem Stateless.of_characters {bytesOf : Char → List UInt8} {lacks : Char → Bool}
    (h : ∀ text, cs.encode encoding text = (text.flatMap bytesOf, encoding, text.any lacks)) :
    cs.Stateless encoding where
  used text := by rw [h]
  errors text := by
    have hlacks : cs.isUnmappable encoding = lacks := by
      funext c
      simp [isUnmappable, h]
    rw [h, hlacks]
  bytes text _ := by simp [h]

theorem stateless_utf8 : cs.Stateless (.encodingRs .utf8) :=
  .of_characters fun text => by
    rw [encode, encodeRs_utf8, asBytes, any_eq_false.mpr fun c _ => Bool.false_ne_true]

theorem stateless_oem437 : cs.Stateless .oem437 :=
  .of_characters fun text => by rw [encode, CodePage.encode_eq]

theorem stateless_oem850 : cs.Stateless .oem850 :=
  .of_characters fun text => by rw [encode, CodePage.encode_eq]

/-- Every encoding is stateless, if those of the library are. -/
theorem stateless_of_library
    (h : ∀ e, e ≠ .utf8 → encoding = .encodingRs e → cs.Stateless encoding) :
    cs.Stateless encoding := by
  cases encoding with
  | encodingRs e =>
    by_cases hutf8 : e = .utf8
    · rw [hutf8]
      exact stateless_utf8
    · exact h e hutf8 rfl
  | oem437 => exact stateless_oem437
  | oem850 => exact stateless_oem850

theorem encode_latin1 {e : Encoding} (h : e ≠ .utf8) (text : List Char) :
    Codecs.latin1.encode (.encodingRs e) text =
      ((encodeLatin1ForWire text).bytes, .encodingRs e, (encodeLatin1ForWire text).hadLoss) := by
  rw [encode, show latin1.encodeRs e text = _ from if_neg h]

theorem stateless_latin1 (encoding : ResolvedEncoding) : Codecs.latin1.Stateless encoding := by
  refine stateless_of_library fun e hutf8 he => ?_
  subst he
  exact .of_characters fun text => by rw [encode_latin1 hutf8, encodeLatin1ForWire]

/-! ### Lengths -/

/-- An OEM code page writes at most one byte for each UTF-16 unit. -/
theorem length_encodeNarrowWith_oem (h : ∀ e, encoding ≠ .encodingRs e) (text : List Char) :
    (cs.encodeNarrowWith text encoding).bytes.length ≤ (utf16Units text).length := by
  rw [(stateless_of_library fun e _ he => absurd he (h e)).encodeNarrowWith_eq]
  induction text with
  | nil => exact le_refl 0
  | cons c text ih =>
    have hc : (cs.narrowBytes encoding c).length ≤ (encodeUtf16 c).length := by
      rw [narrowBytes]
      split
      · simp [substitutes]
      · next hmapped =>
        cases encoding with
        | encodingRs e => exact absurd rfl (h e)
        | oem437 | oem850 =>
          simp only [isUnmappable, encode, CodePage.encode_eq, any_cons, any_nil, Bool.or_false,
            flatMap_singleton, Bool.not_eq_true] at hmapped ⊢
          rw [CodePage.length_encodeChar hmapped]
          rcases encodeUtf16_cases c with ⟨u, hu⟩ | ⟨hi, lo, hu⟩ <;> simp [hu]
    rw [flatMap_cons, utf16Units_cons, length_append, length_append]
    exact Nat.add_le_add hc ih

end Codecs

end MssqlTds
