/-
ZcashFaucet.Lib.ExpiringChain — a chain whose transactions expire.

A chain is the blocks from height 0 on. A transaction with an expiry height
may stand in a block of that height at most; one whose expiry height is 0 may
stand in any. Reading a chain that is still growing gives a part of it, and
what goes on from a chain is what has it as its beginning.

Which transactions are still to come depends on two numbers (`canMine_iff`).
A chain that leaves another one below the expiry height can mine what the
other cannot, and only such a chain (`MinedAt.leaves`).
-/
import Mathlib.Data.List.Infix

namespace ZcashFaucet.Lib

/-- The blocks of a chain, from height 0. -/
abbrev Chain (Tx : Type) := List (List Tx)

namespace Chain

variable {Tx : Type} {expiry : Tx → Nat} {c c' : Chain Tx} {t : Tx} {h : Nat}

/-- The height of the last block of a chain that is not empty. -/
def tip (c : Chain Tx) : Nat := c.length - 1

/-- The block at `h` has `t`. -/
def MinedAt (chain : Chain Tx) (t : Tx) (h : Nat) : Prop := ∃ block, chain[h]? = some block ∧ t ∈ block

def Mined (c : Chain Tx) (t : Tx) : Prop := ∃ h, MinedAt c t h

/-- `t` may stand in a block of height `h`. -/
def InTime (expiry : Tx → Nat) (t : Tx) (h : Nat) : Prop := expiry t = 0 ∨ h ≤ expiry t

/-- No block has a transaction that had expired. -/
def Valid (expiry : Tx → Nat) (c : Chain Tx) : Prop := ∀ t h, MinedAt c t h → InTime expiry t h

/-- The chain can go on to a block that has `t`. -/
def CanMine (expiry : Tx → Nat) (c : Chain Tx) (t : Tx) : Prop :=
  ∃ c', Valid expiry c' ∧ c <+: c' ∧ ∃ h, c.length ≤ h ∧ MinedAt c' t h

theorem MinedAt.lt_length (hmined : MinedAt c t h) : h < c.length :=
  let ⟨_, hblock, _⟩ := hmined
  (List.getElem?_eq_some_iff.mp hblock).1

/-- What is mined stays mined. -/
theorem MinedAt.of_prefix (hmined : MinedAt c t h) (hgoes : c <+: c') : MinedAt c' t h := by
  obtain ⟨rest, rfl⟩ := hgoes
  obtain ⟨block, hblock, hmem⟩ := hmined
  exact ⟨block, by rw [List.getElem?_append_left (MinedAt.lt_length ⟨block, hblock, hmem⟩), hblock], hmem⟩

/-- A block of the chain that went on is one of the chain it went on from, or
stands past its end. -/
theorem minedAt_of_longer (hgoes : c <+: c') (hmined : MinedAt c' t h) : MinedAt c t h ∨ c.length ≤ h := by
  rcases Nat.lt_or_ge h c.length with hlt | hge
  · obtain ⟨rest, rfl⟩ := hgoes
    obtain ⟨block, hblock, hmem⟩ := hmined
    exact .inl ⟨block, by rw [← hblock, List.getElem?_append_left hlt], hmem⟩
  · exact .inr hge

theorem Valid.of_longer (hvalid : Valid expiry c') (hgoes : c <+: c') : Valid expiry c :=
  fun t h hmined => hvalid t h (hmined.of_prefix hgoes)

theorem minedAt_snoc_iff {block : List Tx} :
    MinedAt (c ++ [block]) t h ↔ MinedAt c t h ∨ h = c.length ∧ t ∈ block := by
  rcases Nat.lt_trichotomy h c.length with hlt | rfl | hgt
  · rw [MinedAt, List.getElem?_append_left hlt, or_iff_left fun hlast => hlt.ne hlast.1, MinedAt]
  · have hnone : ¬ MinedAt c t c.length := fun hmined => (Nat.lt_irrefl _) hmined.lt_length
    rw [MinedAt, List.getElem?_concat_length, or_iff_right hnone]
    simp
  · have hnone : ¬ MinedAt c t h := fun hmined => absurd hmined.lt_length (Nat.not_lt.mpr hgt.le)
    rw [or_iff_right hnone]
    refine ⟨fun hmined => ?_, fun hlast => absurd hlast.1 hgt.ne'⟩
    have hshort := hmined.lt_length
    rw [List.length_append, List.length_singleton] at hshort
    omega

theorem Valid.mine (hvalid : Valid expiry c) (hnext : InTime expiry t c.length) : Valid expiry (c ++ [[t]]) := by
  intro s h hmined
  rcases minedAt_snoc_iff.mp hmined with hbefore | ⟨rfl, hlast⟩
  · exact hvalid s h hbefore
  · obtain rfl := List.mem_singleton.mp hlast
    exact hnext

/-- Empty blocks expire nothing that is mined. -/
theorem Valid.append_empty (hvalid : Valid expiry c) (k : Nat) : Valid expiry (c ++ List.replicate k []) := by
  rintro s h ⟨block, hblock, hmem⟩
  rcases Nat.lt_or_ge h c.length with hlt | hge
  · exact hvalid s h ⟨block, by rw [← hblock, List.getElem?_append_left hlt], hmem⟩
  · rw [List.getElem?_append_right hge] at hblock
    obtain rfl := List.eq_of_mem_replicate (List.mem_of_getElem? hblock)
    cases hmem

/-- A chain can still mine `t` if and only if its next block can. -/
theorem canMine_iff (hvalid : Valid expiry c) : CanMine expiry c t ↔ InTime expiry t c.length := by
  constructor
  · rintro ⟨c', hvalid', -, h, hpast, hmined⟩
    exact (hvalid' t h hmined).imp id hpast.trans
  · exact fun hnext => ⟨c ++ [[t]], hvalid.mine hnext, List.prefix_append _ _, c.length, le_rfl,
      minedAt_snoc_iff.mpr (.inr ⟨rfl, List.mem_singleton_self t⟩)⟩

/-- What a chain has not mined and can no longer mine, no chain that goes on
from it has. -/
theorem not_mined_of_expired (hnot : ¬ Mined c t) (hexpired : ¬ InTime expiry t c.length) (hvalid : Valid expiry c')
    (hgoes : c <+: c') : ¬ Mined c' t := by
  rintro ⟨h, hmined⟩
  rcases minedAt_of_longer hgoes hmined with hbefore | hpast
  · exact hnot ⟨h, hbefore⟩
  · exact hexpired ((hvalid t h hmined).imp id hpast.trans)

/-- A chain that has it left the other one at that block or before, and that
block is not past the expiry height. -/
theorem MinedAt.leaves (hmined : MinedAt c' t h) (hvalid : Valid expiry c') (hexpires : expiry t ≠ 0)
    (hnot : ¬ Mined c t) : h ≤ expiry t ∧ ¬ c'.take (h + 1) <+: c := by
  refine ⟨(hvalid t h hmined).resolve_left hexpires, fun hgoes => hnot ⟨h, ?_⟩⟩
  refine MinedAt.of_prefix ?_ hgoes
  obtain ⟨block, hblock, hmem⟩ := hmined
  exact ⟨block, by rw [List.getElem?_take_of_lt (Nat.lt_succ_self h), hblock], hmem⟩

end Chain

end ZcashFaucet.Lib
