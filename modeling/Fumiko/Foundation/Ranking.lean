import Mathlib.Order.Defs.LinearOrder
import Mathlib.Data.List.Sort

/-! Rows ranked by a key, greatest first.  Rows with equal keys may come in any order, so
a ranking is any choice of a sorted permutation. -/

namespace Fumiko.Foundation

structure Ranking (α : Type) {κ : Type} [LE κ] (key : α → κ) where
  order : List α → List α
  perm : ∀ l, (order l).Perm l
  sorted : ∀ l, (order l).Pairwise fun a b => key b ≤ key a

namespace Ranking

variable {α ι κ : Type} [LinearOrder κ] {key : α → κ}

def stable (key : α → κ) : Ranking α key where
  order l := l.insertionSort fun a b => key b ≤ key a
  perm l := List.perm_insertionSort _ l
  sorted l := by
    have htotal : Std.Total fun a b : α => key b ≤ key a := ⟨fun a b => le_total (key b) (key a)⟩
    have htrans : IsTrans α fun a b => key b ≤ key a := ⟨fun a b c hab hbc => le_trans hbc hab⟩
    exact List.pairwise_insertionSort _ l

def forcing [DecidableEq α] (l : List α) (hsorted : l.Pairwise fun a b => key b ≤ key a) :
    Ranking α key where
  order m := if l.Perm m then l else (stable key).order m
  perm m := by
    split
    · assumption
    · exact (stable key).perm m
  sorted m := by
    split
    · exact hsorted
    · exact (stable key).sorted m

theorem forcing_order [DecidableEq α] {l m : List α} (hsorted : l.Pairwise fun a b => key b ≤ key a)
    (h : l.Perm m) : (forcing l hsorted).order m = l := by
  simp [forcing, h]

@[simp] theorem mem_order (r : Ranking α key) {l : List α} {a : α} : a ∈ r.order l ↔ a ∈ l :=
  (r.perm l).mem_iff

@[simp] theorem length_order (r : Ranking α key) (l : List α) : (r.order l).length = l.length :=
  (r.perm l).length_eq

section Top

variable {name : α → ι} {l : List α} {n : Nat} {a : α}

theorem countP_take_add_drop (p : α → Bool) (n : Nat) :
    l.countP p = (l.take n).countP p + (l.drop n).countP p := by
  rw [← List.countP_append, List.take_append_drop]

theorem one_le_countP {p : α → Bool} (ha : a ∈ l) (hp : p a) : 1 ≤ l.countP p :=
  List.countP_pos_iff.mpr ⟨a, ha, hp⟩

theorem mem_drop_of_name (ha : a ∈ l) (hname : name a ∉ (l.take n).map name) : a ∈ l.drop n := by
  rw [← List.take_append_drop n l, List.mem_append] at ha
  cases ha with
  | inl htake => exact absurd (List.mem_map_of_mem htake) hname
  | inr hdrop => exact hdrop

theorem key_le_of_name (hl : l.Pairwise fun a b => key b ≤ key a) (ha : a ∈ l)
    (hname : name a ∉ (l.take n).map name) {b : α} (hb : b ∈ l.take n) : key a ≤ key b := by
  rw [← List.take_append_drop n l, List.pairwise_append] at hl
  exact hl.2.2 b hb a (mem_drop_of_name ha hname)

theorem countP_key_lt_le (hl : l.Pairwise fun a b => key b ≤ key a) {i : Nat} (hi : i < l.length) :
    l.countP (fun b => decide (key l[i] < key b)) ≤ i := by
  have hrest : (l.drop i).countP (fun b => decide (key l[i] < key b)) = 0 := by
    rw [List.countP_eq_zero]
    intro b hb
    obtain ⟨k, hk, rfl⟩ := List.mem_drop_iff_getElem.mp hb
    rw [decide_eq_true_eq, not_lt]
    cases k with
    | zero => exact le_refl _
    | succ k => exact List.pairwise_iff_getElem.mp hl i (i + (k + 1)) hi (by omega) (by omega)
  have htake := List.countP_le_length (l := l.take i) (p := fun b => decide (key l[i] < key b))
  rw [countP_take_add_drop _ i, hrest]
  rw [List.length_take] at htake
  omega

variable [DecidableEq ι]

theorem name_mem_take (hl : l.Pairwise fun a b => key b ≤ key a) (ha : a ∈ l)
    (h : l.countP (fun b => decide (name b ≠ name a ∧ key a ≤ key b)) < n) :
    name a ∈ (l.take n).map name := by
  by_contra hname
  have hall : (l.take n).countP (fun b => decide (name b ≠ name a ∧ key a ≤ key b)) =
      (l.take n).length := by
    rw [List.countP_eq_length]
    intro b hb
    rw [decide_eq_true_eq]
    exact ⟨fun heq => hname (heq ▸ List.mem_map_of_mem hb), key_le_of_name hl ha hname hb⟩
  have hlength : n < l.length := by
    have := List.length_pos_of_mem (mem_drop_of_name ha hname)
    rw [List.length_drop] at this
    omega
  rw [countP_take_add_drop _ n, hall, List.length_take_of_le hlength.le] at h
  omega

theorem nodup_take (hl : l.Pairwise fun a b => key b ≤ key a)
    (h : ∀ a ∈ l, 2 ≤ l.countP (fun b => decide (name b = name a)) →
      n < l.countP (fun b => decide (key a < key b)) + 2) :
    ((l.take n).map name).Nodup := by
  rw [List.Nodup, List.pairwise_map, List.pairwise_iff_getElem]
  intro i j hi hj hij heq
  rw [List.length_take] at hi hj
  simp only [List.getElem_take] at heq
  have hil : i < l.length := by omega
  have hjl : j < l.length := by omega
  have htwice : 2 ≤ l.countP (fun b => decide (name b = name l[i])) := by
    have hi : l[i] ∈ l.take j := List.mem_take_iff_getElem.mpr ⟨i, by omega, rfl⟩
    have hj : l[j] ∈ l.drop j := List.mem_drop_iff_getElem.mpr ⟨0, by omega, rfl⟩
    have hfirst := one_le_countP (p := fun b => decide (name b = name l[i])) hi (by simp)
    have hsecond := one_le_countP (p := fun b => decide (name b = name l[i])) hj (by simp [heq])
    rw [countP_take_add_drop _ j]
    omega
  have hbefore := countP_key_lt_le hl hil
  have := h _ (List.getElem_mem hil) htwice
  omega

theorem pairwise_append_of_le {l m : List α} (hl : l.Pairwise fun a b => key b ≤ key a)
    (hm : m.Pairwise fun a b => key b ≤ key a) (h : ∀ a ∈ l, ∀ b ∈ m, key b ≤ key a) :
    (l ++ m).Pairwise fun a b => key b ≤ key a :=
  List.pairwise_append.mpr ⟨hl, hm, h⟩

theorem exists_name_not_mem_take [DecidableEq α]
    (hkey : ∀ b ∈ l, name b = name a → key b = key a)
    (h : n ≤ l.countP (fun b => decide (name b ≠ name a ∧ key a ≤ key b))) :
    ∃ r : Ranking α key, name a ∉ ((r.order l).take n).map name := by
  let p : α → Bool := fun b => decide (name b ≠ name a ∧ key a ≤ key b)
  let first := (stable key).order (l.filter p)
  let rest := (stable key).order (l.filter fun b => !p b)
  have hsorted : (first ++ rest).Pairwise fun a b => key b ≤ key a := by
    apply pairwise_append_of_le ((stable key).sorted _) ((stable key).sorted _)
    intro b hb c hc
    simp only [mem_order, List.mem_filter, p, Bool.not_eq_true', decide_eq_true_eq,
      decide_eq_false_iff_not] at hb hc
    apply le_trans _ hb.2.2
    by_cases hname : name c = name a
    · exact (hkey c hc.1 hname).le
    · exact le_of_not_ge fun hle => hc.2 ⟨hname, hle⟩
  have hperm : (first ++ rest).Perm l :=
    (((stable key).perm _).append ((stable key).perm _)).trans (List.filter_append_perm p l)
  refine ⟨forcing (first ++ rest) hsorted, ?_⟩
  have hlength : n ≤ first.length := by
    rw [length_order, ← List.countP_eq_length_filter]
    exact h
  rw [forcing_order hsorted hperm, List.take_append_of_le_length hlength, List.mem_map]
  intro ⟨b, hb, hname⟩
  have hfirst : b ∈ first := List.mem_of_mem_take hb
  simp only [mem_order, List.mem_filter, p, first, decide_eq_true_eq] at hfirst
  exact hfirst.2.1 hname

theorem exists_order_above [DecidableEq α] {same others : List α} (hsame : ∀ b ∈ same, key b = key a)
    (hperm : (same ++ others).Perm (l.filter fun b => !decide (key a < key b))) :
    ∃ (r : Ranking α key) (above rest : List α), r.order l = above ++ (same ++ rest) ∧
      above.length = l.countP fun b => decide (key a < key b) := by
  let above := (stable key).order (l.filter fun b => key a < key b)
  let rest := (stable key).order others
  have hrest (b : α) (hb : b ∈ rest) : key b ≤ key a := by
    have hlower := hperm.mem_iff.mp (List.mem_append_right same ((mem_order _).mp hb))
    simpa using (List.mem_filter.mp hlower).2
  have hsorted : (above ++ (same ++ rest)).Pairwise fun a b => key b ≤ key a := by
    apply pairwise_append_of_le ((stable key).sorted _)
    · apply pairwise_append_of_le _ ((stable key).sorted _)
      · intro b hb c hc
        rw [hsame b hb]
        exact hrest c hc
      · apply List.pairwise_of_forall_mem_list
        intro b hb c hc
        rw [hsame b hb, hsame c hc]
    · intro b hb c hc
      simp only [mem_order, List.mem_filter, decide_eq_true_eq] at hb
      apply le_trans _ hb.2.le
      cases List.mem_append.mp hc with
      | inl hc => exact (hsame c hc).le
      | inr hc => exact hrest c hc
  have hall : (above ++ (same ++ rest)).Perm l := by
    have hlower := (((stable key).perm others).append_left same).trans hperm
    exact (((stable key).perm _).append hlower).trans (List.filter_append_perm _ l)
  refine ⟨forcing (above ++ (same ++ rest)) hsorted, above, rest, forcing_order hsorted hall, ?_⟩
  rw [length_order, ← List.countP_eq_length_filter]

theorem exists_not_nodup_take [DecidableEq α]
    (hkey : ∀ b ∈ l, name b = name a → key b = key a)
    (htwice : 2 ≤ l.countP (fun b => decide (name b = name a)))
    (h : l.countP (fun b => decide (key a < key b)) + 2 ≤ n) :
    ∃ r : Ranking α key, ¬((r.order l).take n |>.map name).Nodup := by
  let same := (l.filter fun b => !decide (key a < key b)).filter fun b => name b = name a
  have hsame (b : α) (hb : b ∈ same) : name b = name a ∧ key b = key a := by
    simp only [same, List.mem_filter, decide_eq_true_eq] at hb
    exact ⟨hb.2, hkey b hb.1.1 hb.2⟩
  obtain ⟨r, above, rest, horder, habove⟩ :=
    exists_order_above (fun b hb => (hsame b hb).2) (List.filter_append_perm _ _)
  refine ⟨r, ?_⟩
  rw [horder]
  have hlength : 2 ≤ same.length := by
    rw [← List.countP_eq_length_filter, List.countP_filter]
    apply htwice.trans (List.countP_mono_left _)
    intro b hb hname
    simp only [decide_eq_true_eq] at hname
    simp [hname, hkey b hb hname]
  obtain ⟨x, y, tail, hpair⟩ : ∃ x y tail, same = x :: y :: tail := by
    match hs : same, hlength with
    | x :: y :: tail, _ => exact ⟨x, y, tail, rfl⟩
  have hwithin : above ++ [x, y] <+: (above ++ (same ++ rest)).take n := by
    rw [List.prefix_take_iff]
    constructor
    · exact ⟨tail ++ rest, by simp [hpair]⟩
    · rw [List.length_append, habove]
      exact h
  have hsublist : [x, y].Sublist ((above ++ (same ++ rest)).take n) :=
    (List.sublist_append_right above [x, y]).trans hwithin.sublist
  intro hnodup
  have hnames := hnodup.sublist (hsublist.map name)
  have hx := (hsame x (by simp [hpair])).1
  have hy := (hsame y (by simp [hpair])).1
  simp [hx, hy] at hnames

end Top

section Filtered

variable {l : List α} {q : α → Bool} {k n : Nat} {a : α}

theorem countP_key_lt_of_mem_take (hl : l.Pairwise fun a b => key b ≤ key a) (ha : a ∈ l.take n) :
    l.countP (fun b => decide (key a < key b)) < n := by
  obtain ⟨i, hi, rfl⟩ := List.mem_take_iff_getElem.mp ha
  have hbefore := countP_key_lt_le hl (Nat.lt_of_lt_of_le hi (Nat.min_le_right _ _))
  omega

theorem exists_mem_take [DecidableEq α] (ha : a ∈ l)
    (h : l.countP (fun b => decide (key a < key b)) < n) :
    ∃ r : Ranking α key, a ∈ (r.order l).take n := by
  have hlower : a ∈ l.filter fun b => !decide (key a < key b) :=
    List.mem_filter.mpr ⟨ha, by simp⟩
  have hown (b : α) (hb : b ∈ [a]) : key b = key a := by rw [List.mem_singleton.mp hb]
  obtain ⟨r, above, rest, horder, habove⟩ :=
    exists_order_above hown (List.perm_cons_erase hlower).symm
  refine ⟨r, ?_⟩
  rw [horder]
  refine List.mem_take_iff_getElem.mpr ⟨above.length, ?_, ?_⟩
  · rw [List.length_append, List.length_append, List.length_singleton]
    omega
  · exact List.getElem_of_append rfl rfl

theorem take_filter_of_forall (hk : k ≤ n) (h : ∀ a ∈ l.take n, q a) :
    (l.filter q).take k = l.take k := by
  rw [← List.take_append_drop n l, List.filter_append, List.filter_eq_self.mpr h]
  by_cases hlength : l.length ≤ n
  · rw [List.drop_of_length_le hlength, List.filter_nil]
  · have htake : (l.take n).length = n := List.length_take_of_le (by omega)
    rw [List.take_append_of_le_length (by omega), List.take_append_of_le_length (by omega)]

theorem take_filter_iff [DecidableEq α] (key : α → κ) (l : List α) (q : α → Bool) (n : Nat) :
    (∀ (r : Ranking α key) (k : Nat), k ≤ n →
      ∃ r' : Ranking α key, (r.order l).take k = (r'.order (l.filter q)).take k) ↔
      ∀ a ∈ l, q a = false → n ≤ l.countP fun b => decide (key a < key b) := by
  constructor
  · intro h a ha hfails
    by_contra hfew
    obtain ⟨r, htop⟩ := exists_mem_take ha (Nat.lt_of_not_le hfew)
    obtain ⟨r', heq⟩ := h r n (Nat.le_refl n)
    rw [heq] at htop
    have hpasses := (List.mem_filter.mp ((mem_order r').mp (List.mem_of_mem_take htop))).2
    rw [hfails] at hpasses
    cases hpasses
  · intro h r k hk
    have hsorted : ((r.order l).filter q).Pairwise fun a b => key b ≤ key a :=
      (r.sorted l).filter q
    refine ⟨forcing _ hsorted, ?_⟩
    rw [forcing_order hsorted ((r.perm l).filter q), take_filter_of_forall hk]
    intro a ha
    by_contra hfails
    have hmany := h a ((mem_order r).mp (List.mem_of_mem_take ha)) (by simpa using hfails)
    rw [← (r.perm l).countP_eq] at hmany
    have hfew := countP_key_lt_of_mem_take (r.sorted l) ha
    omega

theorem exists_order_append [DecidableEq α] {top others : List α}
    (hsorted : top.Pairwise fun a b => key b ≤ key a) (hbelow : ∀ a ∈ top, ∀ b ∈ others, key b ≤ key a)
    (hperm : (top ++ others).Perm l) :
    ∃ (r : Ranking α key) (rest : List α), r.order l = top ++ rest ∧ rest.length = others.length := by
  let rest := (stable key).order others
  have hall : (top ++ rest).Pairwise fun a b => key b ≤ key a := by
    apply pairwise_append_of_le hsorted ((stable key).sorted _)
    intro a ha b hb
    exact hbelow a ha b ((mem_order _).mp hb)
  have hrest : (top ++ rest).Perm l := (((stable key).perm others).append_left top).trans hperm
  exact ⟨forcing _ hall, rest, forcing_order hall hrest, length_order _ _⟩

theorem key_le_of_mem_take (h : ∀ a ∈ l, q a = false → n ≤ (l.filter q).countP fun b => decide (key a ≤ key b))
    (r : Ranking α key) (hk : k ≤ n) (ha : a ∈ (r.order (l.filter q)).take k) {b : α}
    (hb : b ∈ (r.order (l.filter q)).drop k ++ l.filter fun b => !q b) : key b ≤ key a := by
  cases List.mem_append.mp hb with
  | inl hdrop =>
    have hsorted := r.sorted (l.filter q)
    rw [← List.take_append_drop k (r.order _), List.pairwise_append] at hsorted
    exact hsorted.2.2 a ha b hdrop
  | inr hfails =>
    rw [List.mem_filter, Bool.not_eq_true'] at hfails
    -- Otherwise all that is no less than `b` comes before `a`, which is among the first `k`.
    by_contra hlt
    have hmany := h b hfails.1 hfails.2
    have hbefore := countP_key_lt_of_mem_take (r.sorted (l.filter q)) ha
    rw [(r.perm (l.filter q)).countP_eq] at hbefore
    have hle : (l.filter q).countP (fun c => decide (key b ≤ key c)) ≤
        (l.filter q).countP (fun c => decide (key a < key c)) := by
      apply List.countP_mono_left
      intro c _ hc
      exact decide_eq_true ((lt_of_not_ge hlt).trans_le (of_decide_eq_true hc))
    omega

theorem take_of_filter_iff [DecidableEq α] (key : α → κ) (l : List α) (q : α → Bool) (n : Nat) :
    (∀ (r' : Ranking α key) (k : Nat), k ≤ n →
      ∃ r : Ranking α key, (r.order l).take k = (r'.order (l.filter q)).take k) ↔
      ∀ a ∈ l, q a = false → n ≤ (l.filter q).countP fun b => decide (key a ≤ key b) := by
  constructor
  · intro h a ha hfails
    obtain ⟨r, heq⟩ := h (stable key) n (Nat.le_refl n)
    have hpasses (b : α) (hb : b ∈ (r.order l).take n) : q b := by
      rw [heq] at hb
      exact (List.mem_filter.mp ((mem_order _).mp (List.mem_of_mem_take hb))).2
    have hname : id a ∉ ((r.order l).take n).map id := by
      rw [List.map_id]
      intro htop
      rw [hpasses a htop] at hfails
      cases hfails
    have hmem : a ∈ r.order l := (mem_order r).mpr ha
    have hlength : n ≤ (r.order l).length := by
      have hdrop := List.length_pos_of_mem (mem_drop_of_name hmem hname)
      rw [List.length_drop] at hdrop
      omega
    have hall : ((r.order l).take n).countP (fun b => decide (key a ≤ key b)) = n := by
      rw [List.countP_eq_length.mpr, List.length_take_of_le hlength]
      intro b hb
      exact decide_eq_true (key_le_of_name (r.sorted l) hmem hname hb)
    rw [← hall, heq, ← ((stable key).perm (l.filter q)).countP_eq]
    exact (List.take_sublist n _).countP_le
  · intro h r' k hk
    have hperm : ((r'.order (l.filter q)).take k ++
        ((r'.order (l.filter q)).drop k ++ l.filter fun b => !q b)).Perm l := by
      rw [← List.append_assoc, List.take_append_drop]
      exact ((r'.perm _).append_right _).trans (List.filter_append_perm q l)
    obtain ⟨r, rest, horder, hlength⟩ := exists_order_append
      ((r'.sorted _).sublist (List.take_sublist k _))
      (fun a ha b hb => key_le_of_mem_take h r' hk ha hb) hperm
    refine ⟨r, ?_⟩
    rw [horder]
    by_cases hfull : k ≤ (r'.order (l.filter q)).length
    · exact List.take_left' (List.length_take_of_le hfull)
    · -- All that pass are among the top rows, so there is none that does not.
      rw [Nat.not_le, length_order] at hfull
      have hnone : (l.filter fun b => !q b) = [] := by
        rw [List.filter_eq_nil_iff]
        intro b hb hfails
        have hmany := h b hb (by simpa using hfails)
        exact absurd (hmany.trans List.countP_le_length) (by omega)
      rw [hnone, List.append_nil, List.length_drop, length_order] at hlength
      have hnil : rest = [] := List.eq_nil_of_length_eq_zero (by omega)
      rw [hnil, List.append_nil, List.take_take, Nat.min_self]

theorem exists_filter_take [DecidableEq α] (r : Ranking α key) (l : List α) (q : α → Bool) (n : Nat) :
    ∃ r' : Ranking α key, ((r.order l).take n).filter q <+: (r'.order (l.filter q)).take n := by
  have hsorted : ((r.order l).filter q).Pairwise fun a b => key b ≤ key a := (r.sorted l).filter q
  refine ⟨forcing _ hsorted, ?_⟩
  rw [forcing_order hsorted ((r.perm l).filter q), List.prefix_take_iff]
  constructor
  · exact (List.take_prefix n _).filter q
  · exact (List.length_filter_le _ _).trans (List.length_take_le n _)

theorem take_filter_of_upward (hl : l.Pairwise fun a b => key b ≤ key a)
    (hq : ∀ a ∈ l, ∀ b ∈ l, key b ≤ key a → q b → q a) (n : Nat) :
    (l.filter q).take n = (l.take n).takeWhile q := by
  induction l generalizing n with
  | nil => simp
  | cons a l ih =>
    obtain ⟨hbelow, hl⟩ := List.pairwise_cons.mp hl
    have hrest (n : Nat) : (l.filter q).take n = (l.take n).takeWhile q :=
      ih hl (fun b hb c hc => hq b (List.mem_cons_of_mem a hb) c (List.mem_cons_of_mem a hc)) n
    cases n with
    | zero => rfl
    | succ n =>
      by_cases ha : q a
      · rw [List.filter_cons_of_pos ha, List.take_succ_cons, List.take_succ_cons, List.takeWhile_cons_of_pos ha,
          hrest]
      · have hnone : l.filter q = [] := by
          rw [List.filter_eq_nil_iff]
          intro b hb hpasses
          exact ha (hq a List.mem_cons_self b (List.mem_cons_of_mem a hb) (hbelow b hb) hpasses)
        rw [List.filter_cons_of_neg ha, hnone, List.take_succ_cons, List.takeWhile_cons_of_neg ha, List.take_nil]

end Filtered

end Ranking

/-- `LIMIT n`: a negative limit means no limit. -/
def limit {α : Type} (n : Int) (l : List α) : List α :=
  if n < 0 then l else l.take n.toNat

theorem limit_natCast {α : Type} (n : Nat) (l : List α) : limit n l = l.take n := by
  simp [limit]

end Fumiko.Foundation
