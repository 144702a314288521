/-
ZcashFaucet.Lib.Protobuf — the wire format of protobuf messages.

A message is a sequence of fields, a field a tag and a payload. The tag
is a varint of the field number and the wire type, which says how the
payload is delimited: a varint, eight bytes, a length and so many bytes,
a group that ends with its own tag, or four bytes. A varint may be longer
than it has to be, so a field number below 16 fits into one byte but need
not be written in one (`Tag.IsShort`).

The values carry their invariants, so a `List Field` is a well-formed
message, and `messageBytes` is all it can look like on the wire.
-/
import Mathlib.Algebra.Order.Ring.Nat
import Mathlib.Data.List.Basic

namespace ZcashFaucet.Lib

/-! ## Varints -/

/-- At most ten bytes, all but the last with the continuation bit. -/
structure Varint where
  more : List UInt8
  last : UInt8
  more_ge : ∀ b ∈ more, 128 ≤ b.toNat
  last_lt : last.toNat < 128
  length_le : more.length ≤ 9
  deriving DecidableEq

def Varint.bytes (v : Varint) : List UInt8 := v.more ++ [v.last]

/-- The number in groups of seven bits, the lowest first. -/
def groupsValue : List UInt8 → Nat
  | [] => 0
  | b :: bs => b.toNat % 128 + 128 * groupsValue bs

def Varint.value (v : Varint) : Nat := groupsValue v.bytes

/-- A number below 128 in one byte. -/
def Varint.ofByte (b : UInt8) (h : b.toNat < 128) : Varint := ⟨[], b, by simp, h, by simp⟩

/-! ## Fields -/

/-- The tag of a field of the given wire type. -/
structure Tag (wire : Nat) where
  num : Nat
  num_pos : 0 < num
  num_lt : num < 2 ^ 29
  code : Varint
  code_value : code.value = 8 * num + wire

/-- The tag is written in one byte. -/
def Tag.IsShort {wire : Nat} (t : Tag wire) : Prop := t.code.more = []

inductive Field
  | varint (tag : Tag 0) (value : Varint)
  | fixed64 (tag : Tag 1) (bytes : List UInt8) (h : bytes.length = 8)
  | delimited (tag : Tag 2) (size : Varint) (payload : List UInt8) (h : size.value = payload.length)
  | group (start : Tag 3) (body : List Field) (stop : Tag 4) (h : start.num = stop.num)
  | fixed32 (tag : Tag 5) (bytes : List UInt8) (h : bytes.length = 4)

def Field.num : Field → Nat
  | .varint tag _ => tag.num
  | .fixed64 tag _ _ => tag.num
  | .delimited tag _ _ _ => tag.num
  | .group start _ _ _ => start.num
  | .fixed32 tag _ _ => tag.num

mutual
/-- A field on the wire. -/
def Field.bytes : Field → List UInt8
  | .varint tag value => tag.code.bytes ++ value.bytes
  | .fixed64 tag bytes _ => tag.code.bytes ++ bytes
  | .delimited tag size payload _ => tag.code.bytes ++ (size.bytes ++ payload)
  | .group start body stop _ => start.code.bytes ++ (messageBytes body ++ stop.code.bytes)
  | .fixed32 tag bytes _ => tag.code.bytes ++ bytes

/-- A message on the wire. -/
def messageBytes : List Field → List UInt8
  | [] => []
  | f :: fs => f.bytes ++ messageBytes fs
end

@[simp] theorem messageBytes_nil : messageBytes [] = [] := by rw [messageBytes]

@[simp] theorem messageBytes_cons (f : Field) (fs : List Field) :
    messageBytes (f :: fs) = f.bytes ++ messageBytes fs := by rw [messageBytes]

/-! ## Tags -/

/-- The first byte of a varint has its value modulo 8. -/
theorem Varint.head_mod (v : Varint) : ∃ b bs, v.bytes = b :: bs ∧ b.toNat % 8 = v.value % 8 := by
  unfold Varint.value Varint.bytes
  cases v.more with
  | nil => exact ⟨v.last, [], rfl, by simp only [List.nil_append, groupsValue]; omega⟩
  | cons b bs =>
    refine ⟨b, bs ++ [v.last], rfl, ?_⟩
    simp only [List.cons_append, groupsValue]
    omega

/-- A varint of one byte is that byte. -/
theorem Varint.bytes_of_short {v : Varint} (h : v.more = []) :
    v.bytes = [v.last] ∧ v.value = v.last.toNat := by
  have hlast := v.last_lt
  unfold Varint.value Varint.bytes
  rw [h]
  refine ⟨rfl, ?_⟩
  simp only [List.nil_append, groupsValue]
  omega

/-- The wire type is read off the first byte, however long the tag is. -/
theorem Tag.head_wire {wire : Nat} (t : Tag wire) (hwire : wire < 8) :
    ∃ b bs, t.code.bytes = b :: bs ∧ b.toNat % 8 = wire := by
  obtain ⟨b, bs, hbytes, hmod⟩ := t.code.head_mod
  refine ⟨b, bs, hbytes, ?_⟩
  rw [hmod, t.code_value]
  omega

/-- A short tag is one byte, with the number in its upper five bits. -/
theorem Tag.bytes_of_short {wire : Nat} {t : Tag wire} (h : t.IsShort) :
    ∃ b : UInt8, t.code.bytes = [b] ∧ b.toNat = 8 * t.num + wire := by
  obtain ⟨hbytes, hvalue⟩ := Varint.bytes_of_short h
  exact ⟨t.code.last, hbytes, by rw [← hvalue, t.code_value]⟩

/-- A field number that fits, in one byte. -/
def Tag.short (num wire : Nat) (hnum : 0 < num) (hlt : 8 * num + wire < 128) : Tag wire where
  num := num
  num_pos := hnum
  num_lt := by omega
  code := .ofByte (8 * num + wire).toUInt8 (by simp; omega)
  code_value := by
    have hbyte : ((8 * num + wire).toUInt8).toNat = 8 * num + wire := by
      simp
      omega
    rw [(Varint.bytes_of_short rfl).2]
    exact hbyte

end ZcashFaucet.Lib
