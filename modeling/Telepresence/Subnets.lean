import Mathlib.Data.Int.ConditionallyCompleteOrder
import Telepresence.Lib.LongestMatch
import Telepresence.Lib.Prefixes

/-!
# Lists of subnets

The package `pkg/subnet`: when one subnet covers another, and the
simplification of a list that drops every subnet covered by another one.

`Covers` compares the bare addresses when the first subnet has no bits, so
`0.0.0.0/0` covers `0.0.0.0/8` but not `10.0.0.0/8`, and the relation is not
transitive.  What `Unique` keeps is therefore stated over a relation that
covering implies.

* `covers_of_contains`: of two subnets with a common address, the shorter one
  covers the longer one, unless it has no bits.
* `exists_kept`: everything dropped by `Unique` is below something it keeps.
* `unique_pairwise`: nothing that `Unique` keeps covers anything else it keeps.
* `unique_addresses`: `Unique` changes nothing about the addresses.
* `unique_keepsMaximal_iff`: when `Unique` keeps the maximal subnets of a list,
  whatever its order.
-/

namespace Telepresence.Subnet

open Netip List Prefix

/-- `Covers`. -/
def covers (a b : Prefix) : Bool :=
  if !(a.isValid && b.isValid) then false
  else if a = b then true
  else if a.addr.is4 ≠ b.addr.is4 then false
  else if a.bits > b.bits then false
  else if a.bits > 0 then
    match a.addr.toPrefix a.bits, b.addr.toPrefix a.bits with
    | some a', some b' => a'.addr = b'.addr
    | _, _ => false
  else a.addr = b.addr

/-- The slice after its last element has been moved to the front, as `Unique`
fills the place of a dropped element. -/
def lastFirst {α : Type} (rest : List α) : List α :=
  match rest.getLast? with
  | none => []
  | some last => last :: rest.dropLast

/-- The loop of `Unique`.  The slice is `kept ++ todo`, the index is the length
of `kept`, and the number bounds the elements still to be examined. -/
def uniqueLoop : Nat → List Prefix → List Prefix → List Prefix
  | 0, kept, _ => kept
  | _ + 1, kept, [] => kept
  | n + 1, kept, sn :: rest =>
      if (kept ++ rest).any (covers · sn) then uniqueLoop n kept (lastFirst rest)
      else uniqueLoop n (kept ++ [sn]) rest

/-- `Unique`. -/
def unique (subnets : List Prefix) : List Prefix := uniqueLoop subnets.length [] subnets

/-- `Partition`. -/
def partition {α : Type} (subnets : List α) (filter : Nat → α → Bool) : List α × List α :=
  ((subnets.zipIdx.filter fun e => filter e.2 e.1).map Prod.fst,
    (subnets.zipIdx.filter fun e => !filter e.2 e.1).map Prod.fst)

/-- A filter that does not look at the positions. -/
theorem partition_eq {α : Type} {subnets : List α} {filter : Nat → α → Bool}
    (p : α → Bool) (h : ∀ e ∈ subnets.zipIdx, filter e.2 e.1 = p e.1) :
    partition subnets filter = (subnets.filter p, subnets.filter fun x => !p x) := by
  have hmap : ∀ p : α → Bool, (subnets.zipIdx.filter fun e => p e.1).map Prod.fst =
      subnets.filter p := by
    intro p
    conv_rhs => rw [← zipIdx_map_fst 0 subnets, filter_map]
    rfl
  rw [Subnet.partition, filter_congr h, filter_congr fun e he => congrArg (!·) (h e he), hmap,
    hmap fun x => !p x]

/-- The longest prefix that contains the address is one of the first list. -/
abbrev LongestIn (yes no : List Prefix) (a : Addr) : Prop :=
  LongestMatch.Selects contains bits yes no a

/-! ## Covering -/

section Covers

variable {a b : Prefix} {ip : Addr}

/-- Covering, for valid subnets of one family. -/
theorem covers_iff : covers a b ↔ a.isValid ∧ b.isValid ∧ (a = b ∨
    a.addr.bitLen = b.addr.bitLen ∧ a.bits ≤ b.bits ∧
      (0 < a.bits ∧ a.addr.value / 2 ^ a.hostBits = b.addr.value / 2 ^ a.hostBits ∨
        a.bits = 0 ∧ a.addr = b.addr)) := by
  by_cases hvalid : a.isValid ∧ b.isValid
  · obtain ⟨ha, hb⟩ := hvalid
    have hnonneg := bits_nonneg ha
    rw [bitLen_eq_iff ha hb]
    by_cases hfamily : a.addr.is4 = b.addr.is4
    · obtain ⟨a', b', ha', hb', hiff⟩ := toPrefix_addr_eq_iff ha hb
        ((bitLen_eq_iff ha hb).mpr hfamily) hnonneg (bits_le_bitLen ha)
      rw [hostBits_eq ha] at hiff
      by_cases hpos : 0 < a.bits
      · simp [covers, ha, hb, hfamily, hpos, hpos.ne', ha', hb', hiff]
      · have hzero : a.bits = 0 := by omega
        have hle := bits_nonneg hb
        simp [covers, ha, hb, hfamily, hzero, hle]
    · simp [covers, ha, hb, hfamily]
  · have hfalse : (a.isValid && b.isValid) = false := by simpa using hvalid
    simp only [covers, hfalse]
    simpa using fun ha hb => absurd ⟨ha, hb⟩ hvalid

/-- A covering subnet contains what the covered one contains. -/
theorem contains_of_covers (h : covers a b) (hip : b.contains ip) : a.contains ip := by
  obtain ⟨ha, _, rfl | ⟨hlen, hle, hcases⟩⟩ := covers_iff.mp h
  · exact hip
  · obtain ⟨_, hzone, hbip, _⟩ := contains_iff.mp hip
    rcases hcases with ⟨_, hvalue⟩ | ⟨hzero, _⟩
    · have hhost : b.hostBits ≤ a.hostBits := by
        simp only [bits, hostBits] at *
        omega
      refine contains_iff.mpr ⟨ha, hzone, hbip.trans hlen.symm, ?_⟩
      rw [value_div_eq hip hhost, hvalue]
    · exact contains_of_bits_eq_zero hzero hzone (hbip.trans hlen.symm)

theorem bits_le_of_covers (h : covers a b) : a.bits ≤ b.bits := by
  obtain ⟨_, _, rfl | ⟨_, hle, _⟩⟩ := covers_iff.mp h
  · exact le_rfl
  · exact hle

/-- A subnet without bits covers only what has the same address. -/
theorem addr_eq_of_covers_zero (h : covers a b) (hzero : a.bits = 0) : a.addr = b.addr := by
  obtain ⟨_, _, rfl | ⟨_, _, ⟨hpos, _⟩ | ⟨_, haddr⟩⟩⟩ := covers_iff.mp h
  · rfl
  · omega
  · exact haddr

theorem covers_of_addr_eq (hzero : a.bits = 0) (hb : b.isValid) (haddr : a.addr = b.addr) :
    covers a b :=
  covers_iff.mpr ⟨isValid_iff.mpr hzero.ge, hb,
    .inr ⟨by rw [haddr], hzero ▸ bits_nonneg hb, .inr ⟨hzero, haddr⟩⟩⟩

/-- A subnet without bits is covered by itself only. -/
theorem eq_of_covers_zero (h : covers a b) (hzero : b.bits = 0) : a = b := by
  obtain ⟨ha, _, rfl | ⟨_, hle, hcases⟩⟩ := covers_iff.mp h
  · rfl
  · have hbits : a.bits = 0 := by
      have := bits_nonneg ha
      omega
    exact eq_of_addr_eq (addr_eq_of_covers_zero h hbits) (hbits.trans hzero.symm)

/-- **Nesting.**  Of two subnets with a common address, the one with fewer bits
covers the other, unless it has none. -/
theorem covers_of_contains (ha : a.contains ip) (hb : b.contains ip) (hle : a.bits ≤ b.bits)
    (hpos : 0 < a.bits) : covers a b := by
  obtain ⟨havalid, _, haip, _⟩ := contains_iff.mp ha
  obtain ⟨hbvalid, _, hbip, _⟩ := contains_iff.mp hb
  exact covers_iff.mpr ⟨havalid, hbvalid,
    .inr ⟨haip.symm.trans hbip, hle, .inl ⟨hpos, quotient_eq ha hb hle⟩⟩⟩

end Covers

/-! ## Simplifying a list -/

@[simp] theorem mem_lastFirst {α : Type} {x : α} {rest : List α} :
    x ∈ lastFirst rest ↔ x ∈ rest := by
  cases h : rest.getLast? with
  | none => simp [lastFirst, getLast?_eq_none_iff.mp h]
  | some last =>
    have hrest : rest = rest.dropLast ++ [last] := by
      rw [dropLast_append_getLast? last h]
    simp only [lastFirst, h, mem_cons]
    rw [hrest]
    simp [or_comm]

@[simp] theorem length_lastFirst {α : Type} (rest : List α) :
    (lastFirst rest).length = rest.length := by
  cases h : rest.getLast? with
  | none => simp [lastFirst, getLast?_eq_none_iff.mp h]
  | some last =>
    have hne : 0 < rest.length := length_pos_of_mem (mem_of_getLast? h)
    simp only [lastFirst, h, length_cons, length_dropLast]
    omega

section Unique

/-- One induction for every property of the loop: what holds at its end holds
at its beginning if each of its two steps carries it back. -/
theorem uniqueLoop_induction {P : List Prefix → List Prefix → List Prefix → Prop}
    (hdone : ∀ kept, P kept [] kept)
    (hdrop : ∀ kept sn rest result, (∃ x ∈ kept ++ rest, covers x sn) →
      P kept (lastFirst rest) result → P kept (sn :: rest) result)
    (hkeep : ∀ kept sn rest result, (∀ x ∈ kept ++ rest, ¬ covers x sn) →
      P (kept ++ [sn]) rest result → P kept (sn :: rest) result)
    (n : Nat) (kept todo : List Prefix) (hn : todo.length ≤ n) :
    P kept todo (uniqueLoop n kept todo) := by
  induction n generalizing kept todo with
  | zero =>
    have hnil : todo = [] := length_eq_zero_iff.mp (by omega)
    rw [hnil]
    exact hdone kept
  | succ n ih =>
    cases todo with
    | nil => exact hdone kept
    | cons sn rest =>
      have hlen : rest.length ≤ n := by simpa using hn
      by_cases hcov : (kept ++ rest).any (covers · sn)
      · rw [uniqueLoop, if_pos hcov]
        exact hdrop _ _ _ _ (any_eq_true.mp hcov) (ih _ _ (by simpa using hlen))
      · rw [uniqueLoop, if_neg hcov]
        refine hkeep _ _ _ _ ?_ (ih _ _ hlen)
        intro x hx hx'
        exact hcov (any_eq_true.mpr ⟨x, hx, hx'⟩)

/-- `Unique` adds nothing. -/
theorem unique_subset (subnets : List Prefix) : unique subnets ⊆ subnets := by
  have h := uniqueLoop_induction
    (P := fun kept todo result => ∀ x ∈ result, x ∈ kept ∨ x ∈ todo)
    (fun kept x hx => Or.inl hx)
    (fun kept sn rest result _ ih x hx => by
      have := ih x hx
      simp only [mem_lastFirst] at this
      simp only [mem_cons]
      tauto)
    (fun kept sn rest result _ ih x hx => by
      have := ih x hx
      simp only [mem_append, mem_singleton] at this
      simp only [mem_cons]
      tauto)
    subnets.length [] subnets le_rfl
  intro x hx
  cases h x hx with
  | inl hnil => cases hnil
  | inr hmem => exact hmem

/-- **What is dropped.**  What covering passes on to the covering subnet is true
of one that `Unique` keeps. -/
theorem exists_kept {R : Prefix → Prop} {subnets : List Prefix}
    (h : ∀ x ∈ subnets, ∀ y ∈ subnets, covers x y → R y → R x) {q : Prefix} (hq : q ∈ subnets)
    (hR : R q) : ∃ k ∈ unique subnets, R k := by
  refine uniqueLoop_induction
    (P := fun kept todo result => kept ++ todo ⊆ subnets →
      ∀ q ∈ kept ++ todo, R q → ∃ k ∈ result, R k)
    ?_ ?_ ?_ subnets.length [] subnets le_rfl (Subset.refl _) q hq hR
  · intro kept _ q hq hR
    exact ⟨q, by simpa using hq, hR⟩
  · intro kept sn rest result ⟨x, hx, hcov⟩ ih hsub q hq hR
    have hsame : ∀ y, y ∈ kept ++ lastFirst rest ↔ y ∈ kept ++ rest := by simp
    have hsub' : kept ++ rest ⊆ subnets := fun y hy => hsub (by simp at hy ⊢; tauto)
    have hih := ih fun y hy => hsub' ((hsame y).mp hy)
    have hmem : q = sn ∨ q ∈ kept ++ rest := by
      simp only [mem_append, mem_cons] at hq ⊢
      tauto
    rcases hmem with rfl | hmem
    · exact hih x ((hsame x).mpr hx) (h x (hsub' hx) q (hsub hq) hcov hR)
    · exact hih q ((hsame q).mpr hmem) hR
  · intro kept sn rest result _ ih hsub q hq hR
    exact ih (by simpa using hsub) q (by simpa using hq) hR

/-- Neither of two subnets covers the other. -/
def Apart (x y : Prefix) : Prop := ¬ covers x y ∧ ¬ covers y x

instance : Std.Symm Apart := ⟨fun _ _ h => ⟨h.2, h.1⟩⟩

/-- **What is kept.**  No subnet that `Unique` keeps covers another one that it
keeps. -/
theorem unique_pairwise (subnets : List Prefix) : (unique subnets).Pairwise Apart := by
  refine uniqueLoop_induction
    (P := fun kept todo result => kept.Pairwise Apart →
      (∀ k ∈ kept, ∀ t ∈ todo, ¬ covers t k) → result.Pairwise Apart)
    ?_ ?_ ?_ subnets.length [] subnets le_rfl List.Pairwise.nil (by simp)
  · intro kept hkept _
    exact hkept
  · intro kept sn rest result _ ih hkept htodo
    exact ih hkept fun k hk t ht => htodo k hk t (mem_cons_of_mem _ (mem_lastFirst.mp ht))
  · intro kept sn rest result hnot ih hkept htodo
    refine ih ?_ ?_
    · refine pairwise_append.mpr ⟨hkept, pairwise_singleton _ _, ?_⟩
      intro k hk x hx
      rw [mem_singleton.mp hx]
      exact ⟨hnot k (mem_append_left _ hk), htodo k hk sn mem_cons_self⟩
    · intro k hk t ht
      cases mem_append.mp hk with
      | inl hk' => exact htodo k hk' t (mem_cons_of_mem _ ht)
      | inr hsn =>
        rw [mem_singleton.mp hsn]
        exact hnot t (mem_append_right _ ht)

/-- **No address is lost or gained** by `Unique`, whatever subnets there are, and
it leaves none that another one covers. -/
theorem unique_addresses (subnets : List Prefix) :
    (∀ a, (∃ p ∈ unique subnets, p.contains a) ↔ ∃ p ∈ subnets, p.contains a) ∧
      (unique subnets).Pairwise Apart := by
  refine ⟨?_, unique_pairwise subnets⟩
  intro a
  constructor
  · rintro ⟨p, hp, ha⟩
    exact ⟨p, unique_subset subnets hp, ha⟩
  · rintro ⟨q, hq, ha⟩
    exact exists_kept (fun _ _ _ _ hcov hy => contains_of_covers hcov hy) hq ha

end Unique

section Maximal

/-- The addresses of the first prefix are addresses of the second. -/
def Within (p q : Prefix) : Prop := ∀ a, p.contains a → q.contains a

/-- Neither of two prefixes has all its addresses in the other. -/
def Incomparable (p q : Prefix) : Prop := ¬ Within p q ∧ ¬ Within q p

instance : Std.Symm Incomparable := ⟨fun _ _ h => ⟨h.2, h.1⟩⟩

/-- The result keeps exactly the maximal subnets of a list. -/
structure KeepsMaximal (subnets result : List Prefix) : Prop where
  subset : result ⊆ subnets
  same : ∀ a, (∃ p ∈ result, p.contains a) ↔ ∃ p ∈ subnets, p.contains a
  maximal : result.Pairwise Incomparable

/-- What is of the family of a subnet without bits has its address. -/
def OneAddress (subnets : List Prefix) : Prop :=
  ∀ z ∈ subnets, z.bits = 0 → ∀ q ∈ subnets, q.addr.is4 = z.addr.is4 → q.addr = z.addr

instance (subnets : List Prefix) : Decidable (OneAddress subnets) :=
  inferInstanceAs (Decidable (∀ z ∈ subnets, _ → ∀ q ∈ subnets, _ → _))

variable {p q z : Prefix} {subnets : List Prefix}

/-- Under the condition, containment is what `Covers` tests. -/
theorem covers_of_within (h : OneAddress subnets) (hp : p ∈ subnets) (hq : q ∈ subnets)
    (hqvalid : q.isValid) (hwithin : Within q p) : covers p q := by
  have hpq := hwithin _ (contains_addr hqvalid)
  have hbits := bits_le_of_within hqvalid hwithin
  obtain ⟨hpvalid, _, hlen, _⟩ := contains_iff.mp hpq
  have hnonneg := bits_nonneg hpvalid
  by_cases hpos : 0 < p.bits
  · exact covers_of_contains hpq (contains_addr hqvalid) hbits hpos
  · have hfamily := (bitLen_eq_iff hqvalid hpvalid).mp hlen
    exact covers_of_addr_eq (by omega) hqvalid (h p hp (by omega) q hq hfamily).symm

/-- Everything that is dropped has its addresses in something that is kept. -/
theorem exists_kept_within (hq : q ∈ subnets) : ∃ k ∈ unique subnets, Within q k :=
  exists_kept (fun _ _ _ _ hcov hy a ha => contains_of_covers hcov (hy a ha)) hq fun _ ha => ha

theorem keepsMaximal_of_oneAddress (hvalid : ∀ p ∈ subnets, p.isValid) (h : OneAddress subnets) :
    KeepsMaximal subnets (unique subnets) := by
  have hsubset := unique_subset subnets
  refine ⟨hsubset, ?_, (unique_pairwise subnets).imp_of_mem ?_⟩
  · intro a
    constructor
    · rintro ⟨p, hp, ha⟩
      exact ⟨p, hsubset hp, ha⟩
    · rintro ⟨q, hq, ha⟩
      obtain ⟨k, hk, hkq⟩ := exists_kept_within hq
      exact ⟨k, hk, hkq a ha⟩
  · intro p q hp hq hapart
    have hpmem := hsubset hp
    have hqmem := hsubset hq
    exact ⟨fun hw => hapart.2 (covers_of_within h hqmem hpmem (hvalid p hpmem) hw),
      fun hw => hapart.1 (covers_of_within h hpmem hqmem (hvalid q hqmem) hw)⟩

/-! ### The order of the list -/

/-- A list in which the elements of `first` are examined before the others, as
long as they are dropped. -/
def examinedFirst {α : Type} : List α → List α → List α
  | [], rest => rest
  | x :: xs, rest => x :: (rest ++ xs.reverse)

theorem examinedFirst_perm {α : Type} (first rest : List α) :
    (examinedFirst first rest).Perm (first ++ rest) := by
  cases first with
  | nil => exact .refl _
  | cons x xs =>
    exact .cons x ((perm_append_comm).trans ((reverse_perm xs).append_right rest))

/-- What is left of a list after its first elements have been dropped. -/
theorem unique_examinedFirst {first rest : List Prefix}
    (h : ∀ xs x ys, first = xs ++ x :: ys → ∃ k ∈ ys ++ rest, covers k x) :
    ∃ left, (∀ y, y ∈ left ↔ y ∈ rest) ∧ unique (examinedFirst first rest) = unique left := by
  cases first with
  | nil => exact ⟨rest, fun _ => Iff.rfl, rfl⟩
  | cons x xs =>
    refine ⟨lastFirst rest, fun _ => mem_lastFirst, ?_⟩
    have hlen : (examinedFirst (x :: xs) rest).length = rest.length + xs.length + 1 := by
      simp [examinedFirst]
    rw [unique, unique, hlen, length_lastFirst]
    clear hlen
    induction xs generalizing x with
    | nil =>
      obtain ⟨k, hk, hcov⟩ := h [] x [] rfl
      rw [examinedFirst, uniqueLoop, if_pos]
      · simp
      · exact any_eq_true.mpr ⟨k, by simpa using hk, hcov⟩
    | cons y ys ih =>
      obtain ⟨k, hk, hcov⟩ := h [] x (y :: ys) rfl
      have hlast : lastFirst (rest ++ (y :: ys).reverse) = examinedFirst (y :: ys) rest := by
        simp [lastFirst, examinedFirst, ← append_assoc]
      rw [examinedFirst, uniqueLoop, if_pos, hlast]
      · exact ih y fun xs' x' ys' heq => h (x :: xs') x' ys' (by rw [heq]; rfl)
      · exact any_eq_true.mpr ⟨k, by simp at hk ⊢; tauto, hcov⟩

/-- **Dropping in some order.**  If every subnet with a rank is covered by one of
a lower rank, some order of the list has all of them dropped first. -/
theorem exists_perm_unique (rank : Prefix → Nat)
    (h : ∀ x ∈ subnets, 0 < rank x → ∃ k ∈ subnets, rank k < rank x ∧ covers k x) :
    ∃ subnets' left, subnets'.Perm subnets ∧ (∀ y, y ∈ left ↔ y ∈ subnets ∧ rank y = 0) ∧
      unique subnets' = unique left := by
  let first := (subnets.filter fun x => 0 < rank x).mergeSort fun x y => rank y ≤ rank x
  let rest := subnets.filter fun x => !decide (0 < rank x)
  have hfirst : first.Perm (subnets.filter fun x => 0 < rank x) := mergeSort_perm ..
  have hperm : (first ++ rest).Perm subnets :=
    (hfirst.append_right rest).trans (filter_append_perm ..)
  have hsorted : first.Pairwise fun x y => decide (rank y ≤ rank x) := by
    refine pairwise_mergeSort ?_ ?_ _
    · simp only [decide_eq_true_eq]
      omega
    · simp only [Bool.or_eq_true, decide_eq_true_eq]
      omega
  have hdropped : ∀ xs x ys, first = xs ++ x :: ys → ∃ k ∈ ys ++ rest, covers k x := by
    intro xs x ys hsplit
    obtain ⟨hx, hpos⟩ := mem_filter.mp (hfirst.mem_iff.mp (by simp [hsplit] : x ∈ first))
    obtain ⟨k, hk, hlt, hcov⟩ := h x hx (of_decide_eq_true hpos)
    have hmem : k ∈ xs ++ x :: ys ++ rest := hsplit ▸ hperm.mem_iff.mpr hk
    -- what comes before `x` has at least its rank
    rw [hsplit, pairwise_append] at hsorted
    have hbefore : ∀ y ∈ xs, rank x ≤ rank y := by
      intro y hy
      exact of_decide_eq_true (hsorted.2.2 y hy x mem_cons_self)
    refine ⟨k, ?_, hcov⟩
    grind
  obtain ⟨left, hleft, hunique⟩ := unique_examinedFirst hdropped
  exact ⟨_, left, (examinedFirst_perm _ _).trans hperm,
    fun y => (hleft y).trans (by simp [rest]), hunique⟩

/-- Where a subnet without bits stands beside one of its family with another
address, some order of the list keeps both of them, or another one with that
family and another address. -/
theorem exists_not_keepsMaximal (hvalid : ∀ p ∈ subnets, p.isValid) (hz : z ∈ subnets)
    (hzero : z.bits = 0) (hq : q ∈ subnets) (hfamily : q.addr.is4 = z.addr.is4)
    (haddr : q.addr ≠ z.addr) :
    ∃ subnets', subnets'.Perm subnets ∧ ¬ KeepsMaximal subnets' (unique subnets') := by
  -- those with the address of `z` are dropped first
  obtain ⟨subnets', left, hperm, hmem, hunique⟩ :=
    exists_perm_unique (fun p => if 0 < p.bits ∧ p.addr = z.addr then 1 else 0) (by
      intro x (hx : x ∈ subnets) hdrop
      have hdrop : 0 < x.bits ∧ x.addr = z.addr := by
        by_contra hnot
        simp [hnot] at hdrop
      exact ⟨z, hz, by simp [hdrop, hzero], covers_of_addr_eq hzero (hvalid x hx) hdrop.2.symm⟩)
  simp only [ite_eq_right_iff, one_ne_zero, imp_false, not_and] at hmem
  refine ⟨subnets', hperm, ?_⟩
  intro hkeeps
  rw [hunique] at hkeeps
  obtain ⟨z', hzkept, rfl⟩ := exists_kept (R := fun k => k = z)
    (fun x _ y _ hcov hy => by
      subst hy
      exact eq_of_covers_zero hcov hzero)
    ((hmem z).mpr ⟨hz, by simp [hzero]⟩) rfl
  obtain ⟨k, hk, hkfamily, hkaddr⟩ := exists_kept
    (R := fun k => k.addr.is4 = z'.addr.is4 ∧ k.addr ≠ z'.addr) (by
      rintro x hx y hy hcov ⟨hyfamily, hyaddr⟩
      obtain ⟨hxvalid, hyvalid, rfl | ⟨hlen, _, hcases⟩⟩ := covers_iff.mp hcov
      · exact ⟨hyfamily, hyaddr⟩
      · refine ⟨((bitLen_eq_iff hxvalid hyvalid).mp hlen).trans hyfamily, ?_⟩
        rcases hcases with ⟨hpos, _⟩ | ⟨_, hsame⟩
        · exact ((hmem x).mp hx).2 hpos
        · exact hsame ▸ hyaddr) ((hmem q).mpr ⟨hq, fun _ => haddr⟩) ⟨hfamily, haddr⟩
  have hkmem := ((hmem k).mp (unique_subset _ hk)).1
  refine (hkeeps.maximal.forall hk hzkept fun heq => hkaddr (heq ▸ rfl)).1 ?_
  intro a ha
  obtain ⟨_, hzone, hlen, _⟩ := contains_iff.mp ha
  exact contains_of_bits_eq_zero hzero hzone
    (hlen.trans ((bitLen_eq_iff (hvalid k hkmem) (hvalid z' hz)).mpr hkfamily))

end Maximal

/-- **The maximal subnets.**  `Unique` keeps exactly the maximal subnets of a
list, whatever its order, if and only if no subnet without bits stands beside
one of its family with another address. -/
theorem unique_keepsMaximal_iff {subnets : List Prefix} (hvalid : ∀ p ∈ subnets, p.isValid) :
    (∀ subnets', subnets'.Perm subnets → KeepsMaximal subnets' (unique subnets')) ↔
      OneAddress subnets := by
  constructor
  · intro h z hz hzero q hq hfamily
    by_contra haddr
    obtain ⟨subnets', hperm, hnot⟩ := exists_not_keepsMaximal hvalid hz hzero hq hfamily haddr
    exact hnot (h subnets' hperm)
  · intro h subnets' hperm
    refine keepsMaximal_of_oneAddress (fun p hp => hvalid p (hperm.mem_iff.mp hp)) ?_
    simpa only [OneAddress, hperm.mem_iff] using h

/-- `10.0.0.0/8` and `10.1.0.0/16`. -/
theorem unique_keepsMaximal_nested :
    KeepsMaximal
      [prefixFrom (.v4 ⟨[10, 0, 0, 0], rfl⟩) 8, prefixFrom (.v4 ⟨[10, 1, 0, 0], rfl⟩) 16]
      (unique
        [prefixFrom (.v4 ⟨[10, 0, 0, 0], rfl⟩) 8, prefixFrom (.v4 ⟨[10, 1, 0, 0], rfl⟩) 16]) :=
  (unique_keepsMaximal_iff (by decide)).mpr (by decide) _ (.refl _)

/-- `0.0.0.0/0` and `10.0.0.0/8` are both kept. -/
theorem unique_keeps_covered :
    ¬ KeepsMaximal
      [prefixFrom (.v4 ⟨[0, 0, 0, 0], rfl⟩) 0, prefixFrom (.v4 ⟨[10, 0, 0, 0], rfl⟩) 8]
      (unique
        [prefixFrom (.v4 ⟨[0, 0, 0, 0], rfl⟩) 0, prefixFrom (.v4 ⟨[10, 0, 0, 0], rfl⟩) 8]) := by
  intro h
  have hunique : unique
      [prefixFrom (.v4 ⟨[0, 0, 0, 0], rfl⟩) 0, prefixFrom (.v4 ⟨[10, 0, 0, 0], rfl⟩) 8] =
        [prefixFrom (.v4 ⟨[0, 0, 0, 0], rfl⟩) 0, prefixFrom (.v4 ⟨[10, 0, 0, 0], rfl⟩) 8] := by
    decide
  have hmaximal := h.maximal
  rw [hunique] at hmaximal
  refine (rel_of_pairwise_cons hmaximal mem_cons_self).2 ?_
  intro a ha
  obtain ⟨_, hzone, hlen, _⟩ := contains_iff.mp ha
  exact contains_of_bits_eq_zero rfl hzone hlen

end Telepresence.Subnet
