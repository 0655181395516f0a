import Fumiko.Foundation.Action

namespace Fumiko.Foundation

structure Listing (σ ε Link Page Mark : Type) where
  fetch : Link → Action σ ε Page
  next : Page → Option Link
  mark : Page → Option Mark
  unmarked : ε
  overlong : ε

namespace Listing

variable {σ ε Link Page Mark Acc : Type} (L : Listing σ ε Link Page Mark) (add : Acc → Page → Acc)

/-- Reads the pages from a link on, with `pagesLeft` fetches to go. -/
def read : (pagesLeft : ℕ) → Option Link → Acc → Action σ ε (Acc × Mark)
  | _, none, _ => Action.raise L.unmarked
  | 0, some _, _ => Action.raise L.overlong
  | pagesLeft + 1, some link, acc => do
    let page ← L.fetch link
    match L.mark page with
    | some mark => pure (add acc page, mark)
    | none => read pagesLeft (L.next page) (add acc page)

/-- From a link on these pages are fetched, all of them without the mark, and the last of
them leads to `last`. -/
inductive Linked : Option Link → σ → List Page → Option Link → σ → Prop
  | nil {link s} : Linked link s [] link s
  | cons {link s page s₁ pages last t} (hfetch : L.fetch link s = (.ok page, s₁))
    (hmark : L.mark page = none) (hrest : Linked (L.next page) s₁ pages last t) :
    Linked (some link) s (page :: pages) last t

/-- From a link on these pages are fetched, and the last of them is the one with the mark. -/
inductive Complete : Link → σ → List Page → Mark → σ → Prop
  | last {link s page mark t} (hfetch : L.fetch link s = (.ok page, t))
    (hmark : L.mark page = some mark) : Complete link s [page] mark t
  | more {link s page s₁ next pages mark t} (hfetch : L.fetch link s = (.ok page, s₁))
    (hmark : L.mark page = none) (hnext : L.next page = some next)
    (hrest : Complete next s₁ pages mark t) : Complete link s (page :: pages) mark t

variable {L add} {link : Option Link} {start : Link} {s t u : σ} {pages : List Page}
  {last : Option Link} {mark : Mark} {acc acc' : Acc} {n : ℕ} {e : ε}

theorem Linked.read (h : L.Linked link s pages last t) (hn : pages.length ≤ n) (acc : Acc) :
    L.read add n link acc s = L.read add (n - pages.length) last (pages.foldl add acc) t := by
  induction h generalizing n acc with
  | nil => rfl
  | cons hfetch hmark _ ih =>
    cases n with
    | zero => cases hn
    | succ n =>
      rw [List.length_cons, Nat.add_sub_add_right, List.foldl_cons, ← ih (Nat.le_of_succ_le_succ hn)]
      simp only [Listing.read, Action.bind_run, hfetch, hmark]

theorem Linked.read_unmarked (h : L.Linked link s pages none t) (hn : pages.length ≤ n) :
    L.read add n link acc s = (.error L.unmarked, t) := by
  rw [h.read hn]
  cases n - pages.length <;> rfl

theorem Linked.read_overlong (h : L.Linked link s pages (some start) t) (hn : pages.length = n) :
    L.read add n link acc s = (.error L.overlong, t) := by
  rw [h.read (Nat.le_of_eq hn), hn, Nat.sub_self]
  rfl

theorem Linked.read_failed (h : L.Linked link s pages (some start) t) (hn : pages.length < n)
    (hfetch : L.fetch start t = (.error e, u)) : L.read add n link acc s = (.error e, u) := by
  obtain ⟨k, hk⟩ := Nat.exists_eq_add_of_lt hn
  rw [h.read (Nat.le_of_lt hn), hk, Nat.add_assoc, Nat.add_sub_cancel_left]
  simp only [Listing.read, Action.bind_run, hfetch]

theorem Linked.take (h : L.Linked link s pages last t) (hn : n < pages.length) :
    ∃ start u, L.Linked link s (pages.take n) (some start) u := by
  induction h generalizing n with
  | nil => cases hn
  | @cons link s page s₁ pages last t hfetch hmark _ ih =>
    cases n with
    | zero => exact ⟨link, s, .nil⟩
    | succ n =>
      obtain ⟨start, u, hstart⟩ := ih (Nat.lt_of_succ_lt_succ hn)
      exact ⟨start, u, .cons hfetch hmark hstart⟩

theorem Linked.read_beyond (h : L.Linked link s pages last t) (hn : n < pages.length)
    (add : Acc → Page → Acc) (acc : Acc) :
    ∃ u, L.read add n link acc s = (.error L.overlong, u) := by
  obtain ⟨start, u, hstart⟩ := h.take hn
  exact ⟨u, hstart.read_overlong (List.length_take_of_le (Nat.le_of_lt hn))⟩

theorem Complete.linked (h : L.Complete start s pages mark t) : ∃ init page last u,
    pages = init ++ [page] ∧ L.Linked (some start) s init (some last) u ∧
      L.fetch last u = (.ok page, t) ∧ L.mark page = some mark := by
  induction h with
  | @last link s page mark t hfetch hmark => exact ⟨[], page, link, s, rfl, .nil, hfetch, hmark⟩
  | @more link s page s₁ next pages mark t hfetch hmark hnext _ ih =>
    obtain ⟨init, page', last, u, rfl, hlinked, hlast⟩ := ih
    exact ⟨page :: init, page', last, u, rfl, .cons hfetch hmark (hnext ▸ hlinked), hlast⟩

theorem Complete.read_beyond (h : L.Complete start s pages mark t) (hn : n < pages.length)
    (add : Acc → Page → Acc) (acc : Acc) :
    ∃ u, L.read add n (some start) acc s = (.error L.overlong, u) := by
  obtain ⟨init, page, last, u, rfl, hlinked, -, -⟩ := h.linked
  rw [List.length_append, List.length_singleton] at hn
  cases Nat.lt_or_eq_of_le (Nat.le_of_lt_succ hn) with
  | inl hlt => exact hlinked.read_beyond hlt add acc
  | inr heq => exact ⟨u, hlinked.read_overlong heq.symm⟩

theorem read_eq_ok_iff : L.read add n (some start) acc s = (.ok (acc', mark), t) ↔
    ∃ pages, L.Complete start s pages mark t ∧ pages.length ≤ n ∧ acc' = pages.foldl add acc := by
  constructor
  · intro h
    induction n generalizing start acc s with
    | zero => cases h
    | succ n ih =>
      obtain ⟨page, s₁, hfetch, hrest⟩ := Action.bind_eq_ok.mp h
      cases hmark : L.mark page with
      | some m =>
        rw [hmark] at hrest
        cases hrest
        exact ⟨[page], .last hfetch hmark, Nat.succ_le_succ (Nat.zero_le n), rfl⟩
      | none =>
        rw [hmark] at hrest
        cases hnext : L.next page with
        | none =>
          rw [hnext] at hrest
          cases n <;> cases hrest
        | some next =>
          rw [hnext] at hrest
          obtain ⟨pages, hpages, hlength, rfl⟩ := ih hrest
          exact ⟨page :: pages, .more hfetch hmark hnext hpages, Nat.succ_le_succ hlength, rfl⟩
  · rintro ⟨pages, hpages, hlength, rfl⟩
    obtain ⟨init, page, last, u, rfl, hlinked, hfetch, hmark⟩ := hpages.linked
    rw [List.length_append, List.length_singleton] at hlength
    obtain ⟨k, hk⟩ := Nat.exists_eq_add_of_le hlength
    rw [hlinked.read (Nat.le_of_succ_le hlength), hk, Nat.add_assoc, Nat.add_sub_cancel_left, Nat.add_comm,
      List.foldl_append]
    simp only [Listing.read, Action.bind_run, hfetch, hmark]
    rfl

theorem moves_read {R : σ → σ → Prop} [Std.Refl R] [IsTrans σ R]
    (hfetch : ∀ link, Action.Moves R (L.fetch link)) (n : ℕ) (link : Option Link) (acc : Acc) :
    Action.Moves R (L.read add n link acc) := by
  induction n generalizing link acc with
  | zero => cases link <;> exact Action.moves_raise _
  | succ n ih =>
    cases link with
    | none => exact Action.moves_raise _
    | some link =>
      apply Action.moves_bind (hfetch link)
      intro page
      split
      · exact Action.moves_pure _
      · exact ih _ _

end Listing

end Fumiko.Foundation
