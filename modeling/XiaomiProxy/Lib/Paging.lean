import Mathlib

/-!
# Reading in pages

A list is read in pages of `L` elements until one of them is not full.  Each page is cut
at its offset out of an arrangement of its own: the arrangements are sorted by a key, the
greatest first, and elements of one key, a *tie*, stand in any order.

* `walk` — read on while there is more.
* `Arranges` — a list is a sorted arrangement of the elements.  All arrangements have the
  keys at the same places (`Arranges.map_eq`).
* `Clean` — no tie reaches over a place.  The elements before a clean place are the same
  in all arrangements (`Arranges.take_perm`).

If the end of every page is clean, a walk reads every element once
(`perm_of_clean`).  If a tie reaches over the end of a page, there are arrangements with
which a walk reads an element twice (`exists_not_nodup`).
-/

universe u v

namespace Paging

variable {α : Type u} {β : Type v}

/-- The `j`-th page of a list. -/
def page (L : ℕ) (l : List α) (j : ℕ) : List α := (l.drop (j * L)).take L

/-- Read pages from the `j`-th on while there is more, `fuel` of them at most. -/
def walk (read : ℕ → List α × Bool) : (fuel j : ℕ) → Option (List α)
  | 0, _ => none
  | fuel + 1, j =>
      if (read j).2 then (walk read fuel (j + 1)).map ((read j).1 ++ ·)
      else some (read j).1

/-- The pages of arrangements that change, and whether they are full. -/
def pages (L : ℕ) (ls : ℕ → List α) (j : ℕ) : List α × Bool :=
  (page L (ls j) j, decide ((page L (ls j) j).length = L))

/-! ## The walk -/

section Walk

variable {read : ℕ → List α × Bool} {fuel fuel' j m : ℕ} {l l' : List α}

/-- What a walk reads does not depend on how far it may go. -/
theorem walk_unique (h : walk read fuel j = some l) (h' : walk read fuel' j = some l') :
    l = l' := by
  induction fuel generalizing fuel' j l l' with
  | zero => cases h
  | succ fuel ih =>
      cases fuel' with
      | zero => cases h'
      | succ fuel' =>
          simp only [walk] at h h'
          split at h
          · rename_i hmore
            rw [if_pos hmore] at h'
            obtain ⟨rest, hrest, rfl⟩ := Option.map_eq_some_iff.mp h
            obtain ⟨rest', hrest', rfl⟩ := Option.map_eq_some_iff.mp h'
            rw [ih hrest hrest']
          · rename_i hlast
            rw [if_neg hlast] at h'
            exact Option.some.inj (h.symm.trans h')

/-- A walk ends with the first page after which there is no more. -/
theorem walk_eq (hmore : ∀ i, j ≤ i → i < j + m → (read i).2 = true)
    (hlast : (read (j + m)).2 = false) :
    walk read (m + 1) j = some ((List.range' j (m + 1)).flatMap fun i => (read i).1) := by
  induction m generalizing j with
  | zero =>
      rw [Nat.add_zero] at hlast
      simp [walk, hlast]
  | succ m ih =>
      have hrest := ih (j := j + 1)
        (fun i hle hlt => hmore i (by omega) (by omega))
        (by rw [Nat.add_right_comm]; exact hlast)
      rw [walk, if_pos (hmore j le_rfl (by omega)), hrest, Option.map_some,
        List.range'_succ (n := m + 1), List.flatMap_cons]

/-- A walk over pages that are mapped reads what is mapped. -/
theorem walk_map (g : α → β) (fuel j : ℕ) :
    walk (fun i => ((read i).1.map g, (read i).2)) fuel j
      = (walk read fuel j).map (List.map g) := by
  induction fuel generalizing j with
  | zero => rfl
  | succ fuel ih =>
      simp only [walk]
      split
      · rw [ih, Option.map_map, Option.map_map]
        refine Option.map_congr fun l _ => ?_
        simp
      · rfl

end Walk

/-! ## Pages -/

section Pages

variable {L n : ℕ} {l : List α} {ls : ℕ → List α}

theorem length_page (L : ℕ) (l : List α) (j : ℕ) :
    (page L l j).length = min L (l.length - j * L) := by
  rw [page, List.length_take, List.length_drop]

theorem take_append_page (L : ℕ) (l : List α) (j : ℕ) :
    l.take (j * L) ++ page L l j = l.take ((j + 1) * L) := by
  rw [page, ← List.take_add, Nat.succ_mul]

/-- The first pages of a list make its beginning. -/
theorem flatMap_page (L : ℕ) (l : List α) (j : ℕ) :
    (List.range j).flatMap (page L l) = l.take (j * L) := by
  induction j with
  | zero => simp
  | succ j ih =>
      rw [List.range_succ, List.flatMap_append, ih, List.flatMap_singleton,
        take_append_page]

/-- **A walk over lists of `n` elements ends with the page `n / L`.** -/
theorem walk_pages (hL : 0 < L) (hlength : ∀ j, (ls j).length = n) :
    walk (pages L ls) (n / L + 1) 0
      = some ((List.range (n / L + 1)).flatMap fun j => page L (ls j) j) := by
  have hfull : ∀ j, (pages L ls j).2 = true ↔ (j + 1) * L ≤ n := by
    intro j
    rw [pages, decide_eq_true_iff, length_page, hlength, Nat.succ_mul]
    omega
  rw [List.range_eq_range']
  refine walk_eq (fun i _ hlt => (hfull i).mpr ?_) ?_
  · exact (Nat.le_div_iff_mul_le hL).mp (by omega)
  · rw [← Bool.not_eq_true, hfull, Nat.zero_add, not_le]
    exact Nat.lt_mul_of_div_lt (Nat.lt_succ_self _) hL

end Pages

/-! ## Arrangements -/

variable {κ : Type v} [LinearOrder κ] (f : α → κ) (rows : List α)

/-- The elements in some order in which the keys do not grow. -/
structure Arranges (l : List α) : Prop where
  perm : l.Perm rows
  sorted : l.Pairwise fun a b => f b ≤ f a

/-- The number of elements with a greater key, and with a key not smaller. -/
def above (t : κ) : ℕ := rows.countP fun a => decide (t < f a)

def notBelow (t : κ) : ℕ := rows.countP fun a => decide (t ≤ f a)

/-- No tie reaches over a place: one that begins before it ends before it. -/
def Clean (k : ℕ) : Prop := ∀ a ∈ rows, above f rows (f a) < k → notBelow f rows (f a) ≤ k

instance (k : ℕ) : Decidable (Clean f rows k) := inferInstanceAs (Decidable (∀ a ∈ rows, _))

section Arrangement

variable {f rows} {l l' : List α} {k : ℕ}

/-- No tie reaches over the end of the list. -/
theorem clean_of_length_le (h : rows.length ≤ k) : Clean f rows k := fun _ _ _ =>
  List.countP_le_length.trans h

/-- The keys are at the same places in all arrangements. -/
theorem Arranges.map_eq (h : Arranges f rows l) (h' : Arranges f rows l') :
    l.map f = l'.map f := by
  have hkeys : (l.map f).Pairwise fun s t => t ≤ s := List.pairwise_map.mpr h.sorted
  have hkeys' : (l'.map f).Pairwise fun s t => t ≤ s := List.pairwise_map.mpr h'.sorted
  exact List.Perm.eq_of_pairwise (fun _ _ _ _ hst hts => le_antisymm hts hst) hkeys hkeys'
    ((h.perm.trans h'.perm.symm).map f)

/-- Before a clean place are the elements whose ties end there. -/
theorem Arranges.take_eq_filter (h : Arranges f rows l) (hk : Clean f rows k) :
    l.take k = l.filter fun a => decide (notBelow f rows (f a) ≤ k) := by
  have hcount : ∀ p : α → Bool, rows.countP p
      = (l.take k).countP p + (l.drop k).countP p := by
    intro p
    rw [← h.perm.countP_eq p, ← List.countP_append, List.take_append_drop]
  have hsorted := h.sorted
  rw [← List.take_append_drop k l, List.pairwise_append] at hsorted
  obtain ⟨-, -, hcross⟩ := hsorted
  have hfirst : ∀ a ∈ l.take k, notBelow f rows (f a) ≤ k := by
    intro a ha
    refine hk a (h.perm.mem_iff.mp (List.mem_of_mem_take ha)) ?_
    -- what is above `a` stands before the place, and `a` itself is not above
    have hrest : (l.drop k).countP (fun b => decide (f a < f b)) = 0 :=
      List.countP_eq_zero.mpr fun b hb => by simpa using hcross a ha b hb
    have hless : (l.take k).countP (fun b => decide (f a < f b)) < (l.take k).length :=
      List.countP_lt_length_iff.mpr ⟨a, ha, by simp⟩
    rw [above, hcount, hrest]
    exact hless.trans_le (List.length_take_le k l)
  have hlast : ∀ a ∈ l.drop k, ¬ notBelow f rows (f a) ≤ k := by
    intro a ha
    -- all that stands before the place is not below `a`, and neither is `a`
    have hall : (l.take k).countP (fun b => decide (f a ≤ f b)) = (l.take k).length :=
      List.countP_eq_length.mpr fun b hb => by simpa using hcross b hb a ha
    have hself : 0 < (l.drop k).countP (fun b => decide (f a ≤ f b)) :=
      List.countP_pos_iff.mpr ⟨a, ha, by simp⟩
    have hk : k < l.length := by
      have hpos := List.length_pos_of_mem ha
      rw [List.length_drop] at hpos
      omega
    rw [notBelow, hcount, hall, List.length_take]
    omega
  conv_rhs => rw [← List.take_append_drop k l]
  rw [List.filter_append, List.filter_eq_self.mpr fun a ha => by simpa using hfirst a ha,
    List.filter_eq_nil_iff.mpr fun a ha => by simpa using hlast a ha, List.append_nil]

/-- **The elements before a clean place are the same in all arrangements.** -/
theorem Arranges.take_perm (h : Arranges f rows l) (h' : Arranges f rows l')
    (hk : Clean f rows k) : (l.take k).Perm (l'.take k) := by
  rw [h.take_eq_filter hk, h'.take_eq_filter hk]
  exact (h.perm.trans h'.perm.symm).filter _

/-- Any order of a tie is that of an arrangement. -/
theorem arranges_tie {base : List α} (h : Arranges f rows base) (t : κ) (tie : List α)
    (htie : tie.Perm (base.filter fun a => f a = t)) :
    Arranges f rows ((base.filter fun a => t < f a) ++ tie ++ base.filter fun a => f a < t) := by
  have hkey : ∀ a ∈ tie, f a = t := fun a ha =>
    of_decide_eq_true (List.mem_filter.mp (htie.mem_iff.mp ha)).2
  have habove : ∀ a ∈ base.filter fun a => t < f a, t < f a := fun a ha =>
    of_decide_eq_true (List.mem_filter.mp ha).2
  have hbelow : ∀ a ∈ base.filter fun a => f a < t, f a < t := fun a ha =>
    of_decide_eq_true (List.mem_filter.mp ha).2
  constructor
  · have hsame : (base.filter fun a => !decide (t < f a)).filter (fun a => f a = t)
        = base.filter fun a => f a = t := by
      rw [List.filter_filter]
      refine List.filter_congr fun a _ => ?_
      rw [Bool.eq_iff_iff]
      simp only [Bool.and_eq_true, Bool.not_eq_true', decide_eq_true_iff,
        decide_eq_false_iff_not]
      exact and_iff_left_of_imp fun h => h.le.not_gt
    have hless : (base.filter fun a => !decide (t < f a)).filter (fun a => !decide (f a = t))
        = base.filter fun a => f a < t := by
      rw [List.filter_filter]
      refine List.filter_congr fun a _ => ?_
      rw [Bool.eq_iff_iff]
      simp only [Bool.and_eq_true, Bool.not_eq_true', decide_eq_true_iff,
        decide_eq_false_iff_not]
      exact ⟨fun ⟨hne, hnot⟩ => lt_of_le_of_ne (not_lt.mp hnot) hne,
        fun h => ⟨h.ne, h.not_gt⟩⟩
    have hrest := List.filter_append_perm (fun a => decide (f a = t))
      (base.filter fun a => !decide (t < f a))
    rw [hsame, hless] at hrest
    have hall := List.filter_append_perm (fun a => decide (t < f a)) base
    rw [List.append_assoc]
    refine (List.Perm.append_left _ ?_).trans (hall.trans h.perm)
    exact (htie.append_right _).trans hrest
  · rw [List.pairwise_append, List.pairwise_append]
    refine ⟨⟨h.sorted.filter _, ?_, ?_⟩, h.sorted.filter _, ?_⟩
    · refine List.pairwise_of_forall_mem_list fun a ha b hb => ?_
      rw [hkey a ha, hkey b hb]
    · intro a ha b hb
      rw [hkey b hb]
      exact (habove a ha).le
    · intro a ha b hb
      refine (hbelow b hb).le.trans ?_
      rcases List.mem_append.mp ha with ha | ha
      · exact (habove a ha).le
      · exact (hkey a ha).ge

/-- If a tie reaches over a place, one of its elements may come before the place or after
it. -/
theorem exists_arrangements (hclean : ¬ Clean f rows k) {base : List α}
    (hbase : Arranges f rows base) :
    ∃ l l', Arranges f rows l ∧ Arranges f rows l' ∧ ∃ (x : α) (q q' : ℕ),
      l[q]? = some x ∧ l'[q']? = some x ∧ q < k ∧ k ≤ q' := by
  simp only [Clean, not_forall, not_le] at hclean
  obtain ⟨a, ha, habove, hbelow⟩ := hclean
  have htie : a ∈ base.filter fun b => f b = f a :=
    List.mem_filter.mpr ⟨hbase.perm.mem_iff.mpr ha, by simp⟩
  obtain ⟨x, tie, hx⟩ := List.exists_cons_of_ne_nil (List.ne_nil_of_mem htie)
  have hkey : ∀ b ∈ x :: tie, f b = f a := by
    intro b hb
    rw [← hx] at hb
    exact of_decide_eq_true (List.mem_filter.mp hb).2
  -- `x` comes first in its tie, or last
  have hfirst := arranges_tie hbase (f a) (x :: tie) (by rw [hx])
  have hlast := arranges_tie hbase (f a) (tie ++ [x])
    (by rw [hx]; exact List.perm_append_singleton x tie)
  have hcount : ∀ p : α → Bool, rows.countP p
      = (base.filter fun b => f a < f b).countP p + (x :: tie).countP p
        + (base.filter fun b => f b < f a).countP p := by
    intro p
    rw [← hfirst.perm.countP_eq p, List.countP_append, List.countP_append]
  have hbefore : (base.filter fun b => f a < f b).length ≤ above f rows (f a) := by
    rw [above, hcount, List.countP_eq_length.mpr fun b hb => (List.mem_filter.mp hb).2]
    omega
  have hthrough : notBelow f rows (f a)
      ≤ (base.filter fun b => f a < f b).length + (tie.length + 1) := by
    have hrest : (base.filter fun b => f b < f a).countP (fun b => decide (f a ≤ f b)) = 0 :=
      List.countP_eq_zero.mpr fun b hb => by
        simpa using of_decide_eq_true (List.mem_filter.mp hb).2
    rw [notBelow, hcount, hrest, Nat.add_zero]
    exact Nat.add_le_add List.countP_le_length List.countP_le_length
  refine ⟨_, _, hfirst, hlast, x, (base.filter fun b => f a < f b).length,
    (base.filter fun b => f a < f b).length + tie.length, ?_, ?_, ?_, ?_⟩
  · simp
  · simp
  · omega
  · omega

end Arrangement

/-! ## What a walk reads -/

section Read

variable {f rows} {L : ℕ} {ls : ℕ → List α}

/-- **If no tie reaches over the end of a page, a walk reads every element once**, and in
order, whatever the arrangements are. -/
theorem perm_of_clean (hL : 0 < L) (hls : ∀ j, Arranges f rows (ls j))
    (hclean : ∀ j, Clean f rows (j * L)) :
    ∃ all, walk (pages L ls) (rows.length / L + 1) 0 = some all ∧ Arranges f rows all := by
  have hlength : ∀ j, (ls j).length = rows.length := fun j => (hls j).perm.length_eq
  have hall : (ls 0).length ≤ (rows.length / L + 1) * L := by
    rw [hlength 0]
    exact (Nat.lt_mul_of_div_lt (Nat.lt_succ_self _) hL).le
  refine ⟨_, walk_pages hL hlength, ?_, ?_⟩
  · have hperm : ∀ m, ((List.range m).flatMap fun j => page L (ls j) j).Perm
        ((ls 0).take (m * L)) := by
      intro m
      induction m with
      | zero => simp
      | succ m ih =>
          rw [List.range_succ, List.flatMap_append, List.flatMap_singleton]
          have hpage : ((ls 0).take (m * L) ++ page L (ls m) m).Perm
              ((ls 0).take ((m + 1) * L)) := by
            refine (((hls 0).take_perm (hls m) (hclean m)).append_right _).trans ?_
            rw [take_append_page]
            exact (hls m).take_perm (hls 0) (hclean (m + 1))
          exact (ih.append_right _).trans hpage
    have hread := hperm (rows.length / L + 1)
    rw [List.take_of_length_le hall] at hread
    exact hread.trans (hls 0).perm
  · -- the keys that are read are those of any one arrangement
    have hkeys : ((List.range (rows.length / L + 1)).flatMap fun j => page L (ls j) j).map f
        = (ls 0).map f := by
      have hpage : ∀ j, (page L (ls j) j).map f = page L ((ls 0).map f) j := by
        intro j
        rw [page, List.map_take, List.map_drop, (hls j).map_eq (hls 0), page]
      rw [List.map_flatMap, List.flatMap_congr fun j _ => hpage j, flatMap_page,
        List.take_of_length_le (by rwa [List.length_map])]
    rw [← List.pairwise_map (f := f) (R := fun s t => t ≤ s), hkeys, List.pairwise_map]
    exact (hls 0).sorted

/-- An element is on the page of its place. -/
theorem mem_page (hL : 0 < L) {l : List α} {q : ℕ} {a : α} (h : l[q]? = some a) :
    a ∈ page L l (q / L) := by
  have hplace : (page L l (q / L))[q % L]? = some a := by
    rw [page, List.getElem?_take_of_lt (Nat.mod_lt q hL), List.getElem?_drop, Nat.mul_comm,
      Nat.div_add_mod, h]
  exact List.mem_of_getElem? hplace

/-- **If a tie reaches over the end of a page, a walk may read an element twice.** -/
theorem exists_not_nodup (hL : 0 < L) {j : ℕ} (hclean : ¬ Clean f rows (j * L))
    {base : List α} (hbase : Arranges f rows base) :
    ∃ ls, (∀ i, Arranges f rows (ls i)) ∧
      ∃ all, walk (pages L ls) (rows.length / L + 1) 0 = some all ∧ ¬ all.Nodup := by
  obtain ⟨l, l', hl, hl', x, q, q', hx, hx', hlt, hle⟩ :=
    exists_arrangements hclean hbase
  have hls : ∀ i, Arranges f rows (if i < j then l else l') := by
    intro i
    split
    · exact hl
    · exact hl'
  refine ⟨fun i => if i < j then l else l', hls, _,
    walk_pages hL fun i => (hls i).perm.length_eq, fun hnodup => ?_⟩
  -- the page of `q` is read out of `l`, and the later page of `q'` out of `l'`
  have hpage : q / L < j := (Nat.div_lt_iff_lt_mul hL).mpr hlt
  have hpage' : j ≤ q' / L := (Nat.le_div_iff_mul_le hL).mpr hle
  have hq' : q' < rows.length := by
    rw [← hl'.perm.length_eq]
    exact (List.getElem?_eq_some_iff.mp hx').1
  have hmem : q' / L < rows.length / L + 1 :=
    Nat.lt_succ_of_le (Nat.div_le_div_right hq'.le)
  have hread : x ∈ page L (if q / L < j then l else l') (q / L) := by
    rw [if_pos hpage]
    exact mem_page hL hx
  have hread' : x ∈ page L (if q' / L < j then l else l') (q' / L) := by
    rw [if_neg (not_lt.mpr hpage')]
    exact mem_page hL hx'
  have hsymm : Std.Symm (Function.onFun List.Disjoint fun i =>
      page L (if i < j then l else l') i) := ⟨fun _ _ hdisjoint => hdisjoint.symm⟩
  refine (List.nodup_flatMap.mp hnodup).2.forall (List.mem_range.mpr ?_)
    (List.mem_range.mpr hmem) ?_ hread hread'
  · omega
  · omega

end Read

end Paging
