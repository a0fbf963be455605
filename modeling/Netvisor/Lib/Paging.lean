/-
Rows listed in an order that may leave ties open, and read a page at a time.

Two readings may break the ties differently, so a page need not go on where
the one before it ended. The pages hold every row once, whatever the readings,
just when no boundary between two pages falls among rows that tie.
-/
import Mathlib.Data.List.Nodup
import Mathlib.Data.List.Sort

namespace Paging

variable {α : Type*} (le : α → α → Prop)

/-- One reading of the rows, consistent with the order. -/
structure Lists (rows out : List α) : Prop where
  perm : out.Perm rows
  sorted : out.Pairwise le

/-- The rows from `offset` on, at most `limit` of them. -/
def page (limit offset : Nat) (out : List α) : List α := (out.drop offset).take limit

/-- The pages of `limit` rows at `0`, `stride`, `2 * stride` and so on, each of its own reading. -/
def pages (limit stride m : Nat) (outs : Nat → List α) : List α :=
  (List.range m).flatMap fun k => page limit (k * stride) (outs k)

section

variable [DecidableRel le] (rows : List α) (r : α)

/-- How many rows have to come before `r`. -/
def before : Nat := rows.countP fun x => ¬ le r x

/-- How many rows may come no later than `r`. -/
def upTo : Nat := rows.countP fun x => le x r

/-- Position `b` falls among rows that tie. -/
def Straddled (b : Nat) : Prop := ∃ r ∈ rows, before le rows r < b ∧ b < upTo le rows r

end

variable {le} {rows out : List α} {r : α} {i j : Nat}

theorem mem_page {limit offset : Nat} {x : α} :
    x ∈ page limit offset out ↔ ∃ i, offset ≤ i ∧ i < offset + limit ∧ out[i]? = some x := by
  simp only [page, List.mem_iff_getElem?, List.getElem?_take, List.getElem?_drop]
  constructor
  · rintro ⟨i, hi⟩
    split at hi
    · exact ⟨offset + i, by omega, by omega, hi⟩
    · cases hi
  · rintro ⟨i, hle, hlt, hi⟩
    refine ⟨i - offset, ?_⟩
    rw [if_pos (by omega), show offset + (i - offset) = i by omega]
    exact hi

theorem page_sublist (limit offset : Nat) (out : List α) : (page limit offset out).Sublist out :=
  (List.take_sublist _ _).trans (List.drop_sublist _ _)

/-! ## The places of tied rows -/

theorem countP_le {p : α → Bool} (h : ∀ k (hk : k < out.length), p out[k] → k < i) : out.countP p ≤ i := by
  have hzero : (out.drop i).countP p = 0 := by
    refine List.countP_eq_zero.mpr fun x hx hp => ?_
    obtain ⟨k, hk, rfl⟩ := List.mem_drop_iff_getElem.mp hx
    have := h _ _ hp
    omega
  have htake : (out.take i).countP p ≤ i := List.countP_le_length.trans (List.length_take_le _ _)
  rw [← List.take_append_drop i out, List.countP_append]
  omega

theorem le_countP {p : α → Bool} (hi : i ≤ out.length) (h : ∀ k (hk : k < out.length), k < i → p out[k]) :
    i ≤ out.countP p := by
  have hall : (out.take i).countP p = (out.take i).length := by
    refine List.countP_eq_length.mpr fun x hx => ?_
    obtain ⟨k, hk, rfl⟩ := List.mem_take_iff_getElem.mp hx
    exact h k _ (by omega)
  have hsub : (out.take i).countP p ≤ out.countP p := (List.take_sublist _ _).countP_le
  rw [hall, List.length_take, Nat.min_eq_left hi] at hsub
  exact hsub

namespace Lists

theorem nodup (h : Lists le rows out) (hnodup : rows.Nodup) : out.Nodup := h.perm.nodup_iff.mpr hnodup

section

variable [Std.Total le]

theorem le_of_le (h : Lists le rows out) (hi : i < out.length) (hj : j < out.length) (hij : i ≤ j) :
    le out[i] out[j] := by
  rcases hij.eq_or_lt with rfl | hlt
  · exact (Std.Total.total (r := le) out[i] out[i]).elim id id
  · exact List.pairwise_iff_getElem.mp h.sorted i j hi hj hlt

variable [DecidableRel le]

/-- What must come before a row of a reading does. -/
theorem before_le (h : Lists le rows out) (hi : i < out.length) : before le rows out[i] ≤ i := by
  rw [before, ← h.perm.countP_eq]
  refine countP_le fun k hk hp => ?_
  by_contra hik
  exact (of_decide_eq_true hp) (h.le_of_le hi hk (by omega))

theorem lt_upTo (h : Lists le rows out) (hi : i < out.length) : i < upTo le rows out[i] := by
  rw [upTo, ← h.perm.countP_eq]
  exact le_countP hi fun k hk hki => decide_eq_true (h.le_of_le hk hi (by omega))

variable [IsTrans α le]

/-- Past the place of those that must come before `r`, nothing comes before `r`. -/
theorem le_getElem (h : Lists le rows out) (hi : i < out.length) (hr : before le rows r ≤ i) : le r out[i] := by
  by_contra hnot
  have : i + 1 ≤ before le rows r := by
    rw [before, ← h.perm.countP_eq]
    exact le_countP hi fun k hk hki =>
      decide_eq_true fun hrk => hnot (IsTrans.trans _ _ _ hrk (h.le_of_le hk hi (by omega)))
  omega

theorem getElem_le (h : Lists le rows out) (hi : i < out.length) (hr : i < upTo le rows r) : le out[i] r := by
  by_contra hnot
  have : upTo le rows r ≤ i := by
    rw [upTo, ← h.perm.countP_eq]
    refine countP_le fun k hk hp => ?_
    by_contra hik
    exact hnot (IsTrans.trans _ _ _ (h.le_of_le hi hk (by omega)) (of_decide_eq_true hp))
  omega

end

end Lists

variable [Std.Total le] [IsTrans α le]

variable (le) in
theorem exists_lists [DecidableRel le] (rows : List α) : ∃ out, Lists le rows out :=
  ⟨rows.insertionSort le, List.perm_insertionSort _ _, List.pairwise_insertionSort _ _⟩

/-- Two rows that tie may change places. -/
theorem Lists.swap (h : Lists le rows out) (hi : i < out.length) (hj : j < out.length)
    (hij : le out[i] out[j]) (hji : le out[j] out[i]) :
    Lists le rows ((out.set i out[j]).set j out[i]) := by
  have hties : ∀ k (hk : k < out.length) (hk' : k < ((out.set i out[j]).set j out[i]).length),
      le ((out.set i out[j]).set j out[i])[k] out[k] ∧ le out[k] ((out.set i out[j]).set j out[i])[k] := by
    intro k hk hk'
    have hrefl : le out[k] out[k] := h.le_of_le hk hk le_rfl
    rw [List.getElem_set]
    split
    · next heq => subst heq; exact ⟨hij, hji⟩
    · rw [List.getElem_set]
      split
      · next heq => subst heq; exact ⟨hji, hij⟩
      · exact ⟨hrefl, hrefl⟩
  refine ⟨(List.set_set_perm hi hj).trans h.perm, List.pairwise_iff_getElem.mpr fun a b ha hb hab => ?_⟩
  have hla : a < out.length := by simpa using ha
  have hlb : b < out.length := by simpa using hb
  exact IsTrans.trans _ _ _ (hties a hla ha).1
    (IsTrans.trans _ _ _ (h.le_of_le hla hlb hab.le) (hties b hlb hb).2)

/-! ## The pages together -/

variable [DecidableRel le] {n m limit : Nat} {outs : Nat → List α}

omit [IsTrans α le] in
/-- Without a tie across a boundary, every reading has a row on the same page. -/
theorem Lists.div_eq (hn : 0 < n) (h : Lists le rows out) (hstraddled : ∀ k, ¬ Straddled le rows (k * n))
    (hi : i < out.length) : i / n = before le rows out[i] / n := by
  have hle : before le rows out[i] / n ≤ i / n := Nat.div_le_div_right (h.before_le hi)
  by_contra hne
  have hlt : before le rows out[i] / n < i / n := by omega
  refine hstraddled (i / n) ⟨out[i], h.perm.subset (List.getElem_mem hi), ?_, ?_⟩
  · exact (Nat.div_lt_iff_lt_mul hn).mp hlt
  · exact (Nat.div_mul_le_self i n).trans_lt (h.lt_upTo hi)

omit [IsTrans α le] in
theorem mem_page_iff (hn : 0 < n) (h : Lists le rows out) (hstraddled : ∀ k, ¬ Straddled le rows (k * n)) {k : Nat}
    {x : α} : x ∈ page n (k * n) out ↔ x ∈ rows ∧ before le rows x / n = k := by
  rw [mem_page]
  constructor
  · rintro ⟨i, hle, hlt, hx⟩
    obtain ⟨hi, rfl⟩ := List.getElem?_eq_some_iff.mp hx
    refine ⟨h.perm.subset (List.getElem_mem hi), ?_⟩
    rw [← h.div_eq hn hstraddled hi]
    exact Nat.div_eq_of_lt_le hle (by rw [Nat.succ_mul]; exact hlt)
  · rintro ⟨hx, hk⟩
    obtain ⟨i, hi, rfl⟩ := List.mem_iff_getElem.mp (h.perm.symm.subset hx)
    rw [← h.div_eq hn hstraddled hi] at hk
    have hlt := Nat.lt_div_mul_add (a := i) hn
    rw [hk] at hlt
    exact ⟨i, hk ▸ Nat.div_mul_le_self i n, hlt, List.getElem?_eq_getElem hi⟩

omit [IsTrans α le] in
theorem perm_pages (hn : 0 < n) (hnodup : rows.Nodup) (hm : rows.length ≤ m * n)
    (hstraddled : ∀ k, ¬ Straddled le rows (k * n)) (houts : ∀ k, Lists le rows (outs k)) :
    (pages n n m outs).Perm rows := by
  have hmem : ∀ k x, x ∈ page n (k * n) (outs k) ↔ x ∈ rows ∧ before le rows x / n = k := fun k x =>
    mem_page_iff hn (houts k) hstraddled
  refine (List.perm_ext_iff_of_nodup ?_ hnodup).mpr fun x => ?_
  · refine List.nodup_flatMap.mpr ⟨fun k _ => ((houts k).nodup hnodup).sublist (page_sublist ..), ?_⟩
    refine List.nodup_range.imp fun hne x hx hy => hne ?_
    rw [← ((hmem _ _).mp hx).2, ((hmem _ _).mp hy).2]
  · simp only [pages, List.mem_flatMap, hmem, List.mem_range]
    constructor
    · rintro ⟨k, -, hx, -⟩
      exact hx
    · intro hx
      refine ⟨_, ?_, hx, rfl⟩
      obtain ⟨i, hi, rfl⟩ := List.mem_iff_getElem.mp ((houts 0).perm.symm.subset hx)
      rw [Nat.div_lt_iff_lt_mul hn]
      have := (houts 0).before_le hi
      have := (houts 0).perm.length_eq
      omega

/-- With a tie across a boundary, some readings show a row on both sides. -/
theorem exists_not_perm (hn : 0 < n) (hnodup : rows.Nodup) (hm : rows.length ≤ m * n) {k : Nat}
    (hstraddled : Straddled le rows (k * n)) :
    ∃ outs : Nat → List α, (∀ k, Lists le rows (outs k)) ∧ ¬ (pages n n m outs).Perm rows := by
  obtain ⟨r, -, hbefore, hupTo⟩ := hstraddled
  obtain ⟨out, hout⟩ := exists_lists le rows
  have hlength : upTo le rows r ≤ rows.length := List.countP_le_length
  have hout' := hout.perm.length_eq
  have hi : k * n - 1 < out.length := by omega
  have hj : k * n < out.length := by omega
  have hri := hout.le_getElem (r := r) hi (by omega)
  have hrj := hout.le_getElem (r := r) hj hbefore.le
  have hir := hout.getElem_le (r := r) hi (by omega)
  have hjr := hout.getElem_le (r := r) hj hupTo
  have hswap := hout.swap hi hj (IsTrans.trans _ _ _ hir hrj) (IsTrans.trans _ _ _ hjr hri)
  let outs := fun q => if q = k then (out.set (k * n - 1) out[k * n]).set (k * n) out[k * n - 1] else out
  refine ⟨outs, fun q => ?_, fun hperm => ?_⟩
  · by_cases hq : q = k
    · simpa only [outs, if_pos hq] using hswap
    · simpa only [outs, if_neg hq] using hout
  · obtain ⟨k, rfl⟩ : ∃ k', k = k' + 1 := ⟨k - 1, by
      cases k with
      | zero => simp at hbefore
      | succ k => rfl⟩
    have hkn : (k + 1) * n = k * n + n := Nat.succ_mul k n
    have hkm : k + 1 < m := by
      by_contra hnot
      have := Nat.mul_le_mul_right n (Nat.le_of_not_lt hnot)
      omega
    have hfirst : out[(k + 1) * n - 1] ∈ page n (k * n) (outs k) := by
      refine mem_page.mpr ⟨(k + 1) * n - 1, by omega, by omega, ?_⟩
      simp only [outs, if_neg (Nat.ne_of_lt (Nat.lt_succ_self k))]
      exact List.getElem?_eq_getElem hi
    have hsecond : out[(k + 1) * n - 1] ∈ page n ((k + 1) * n) (outs (k + 1)) := by
      refine mem_page.mpr ⟨(k + 1) * n, le_rfl, by omega, ?_⟩
      simp only [outs, if_pos]
      rw [List.getElem?_set_self (by rwa [List.length_set])]
    have hpairwise := (List.nodup_flatMap.mp (hperm.nodup_iff.mpr hnodup)).2
    have hlt : k + 1 < (List.range m).length := by rwa [List.length_range]
    have hdisjoint := List.pairwise_iff_getElem.mp hpairwise k (k + 1)
      (Nat.lt_of_succ_lt hlt) hlt (Nat.lt_succ_self k)
    simp only [List.getElem_range] at hdisjoint
    exact hdisjoint hfirst hsecond

omit [Std.Total le] [IsTrans α le] [DecidableRel le] in
/-- Where the pages are shorter than the step, rows between them are on none. -/
theorem not_perm_of_lt (hlimit : limit < n) (hrows : limit < rows.length) (hnodup : rows.Nodup)
    (hout : Lists le rows out) : ¬ (pages limit n m fun _ => out).Perm rows := by
  intro hperm
  have hlt : limit < out.length := hout.perm.length_eq ▸ hrows
  have hmem : out[limit] ∈ pages limit n m fun _ => out :=
    hperm.symm.subset (hout.perm.subset (List.getElem_mem hlt))
  obtain ⟨k, -, hpage⟩ := List.mem_flatMap.mp hmem
  obtain ⟨i, hle, hi, hx⟩ := mem_page.mp hpage
  obtain ⟨hil, hx⟩ := List.getElem?_eq_some_iff.mp hx
  obtain rfl := (hout.nodup hnodup).getElem_inj_iff.mp hx
  cases k with
  | zero => omega
  | succ k =>
    have : (k + 1) * n = k * n + n := Nat.succ_mul k n
    omega

/-- **The pages hold every row once, whatever the readings**, just when they are as long as the step, or one holds
all the rows, and no boundary falls among rows that tie. -/
theorem perm_pages_iff (hn : 0 < n) (hlimit : limit ≤ n) (hnodup : rows.Nodup) (hm : rows.length ≤ m * n) :
    (∀ outs : Nat → List α, (∀ k, Lists le rows (outs k)) → (pages limit n m outs).Perm rows) ↔
      (n ≤ limit ∨ rows.length ≤ limit) ∧ ∀ k, ¬ Straddled le rows (k * n) := by
  obtain ⟨out, hout⟩ := exists_lists le rows
  by_cases hlong : n ≤ limit ∨ rows.length ≤ limit
  · -- a page of `limit` rows is then one of `n`
    have hpages : ∀ outs : Nat → List α, (∀ k, Lists le rows (outs k)) → pages limit n m outs = pages n n m outs := by
      intro outs houts
      refine List.flatMap_congr fun k _ => ?_
      rcases hlong with hle | hle
      · rw [hlimit.antisymm hle]
      · have hlength : ((outs k).drop (k * n)).length ≤ limit := by
          rw [List.length_drop, (houts k).perm.length_eq]
          omega
        rw [page, page, List.take_of_length_le hlength, List.take_of_length_le (hlength.trans hlimit)]
    constructor
    · refine fun h => ⟨hlong, fun k hstraddled => ?_⟩
      obtain ⟨outs, houts, hnot⟩ := exists_not_perm hn hnodup hm hstraddled
      exact hnot (hpages outs houts ▸ h outs houts)
    · rintro ⟨-, hstraddled⟩ outs houts
      rw [hpages outs houts]
      exact perm_pages hn hnodup hm hstraddled houts
  · refine iff_of_false (fun h => ?_) (fun h => hlong h.1)
    rw [not_or, Nat.not_le, Nat.not_le] at hlong
    exact not_perm_of_lt hlong.1 hlong.2 hnodup hout (h _ fun _ => hout)

end Paging
