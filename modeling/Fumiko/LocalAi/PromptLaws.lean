import Fumiko.LocalAi.Prompt

namespace Fumiko.LocalAi

open Fumiko.Foundation

section Braces

variable {c : Char} {front mid back : List Char}

theorem eq_append_cons_of_mem_last {text : List Char} (h : c ∈ text) :
    ∃ front back, text = front ++ c :: back ∧ c ∉ back := by
  obtain ⟨front, back, htext, hfront⟩ := List.eq_append_cons_of_mem (List.mem_reverse.mpr h)
  refine ⟨back.reverse, front.reverse, ?_, by rwa [List.mem_reverse]⟩
  rw [← List.reverse_reverse text, htext]
  simp

theorem dropWhile_ne_append (hfront : c ∉ front) (hback : back.head? = some c) :
    (front ++ back).dropWhile (· ≠ c) = back := by
  have hne : ∀ d ∈ front, decide (d ≠ c) = true := by
    intro d hd
    simpa using ne_of_mem_of_not_mem hd hfront
  rw [List.dropWhile_append_of_pos hne]
  cases back with
  | nil => rfl
  | cons d back =>
    cases hback
    simp

theorem dropWhile_ne_of_not_mem {text : List Char} (h : c ∉ text) : text.dropWhile (· ≠ c) = [] := by
  rw [List.dropWhile_eq_nil_iff]
  intro d hd
  simpa using ne_of_mem_of_not_mem hd h

theorem dropWhile_ne_reverse (hback : c ∉ back) (hfront : front.getLast? = some c) :
    ((front ++ back).reverse.dropWhile (· ≠ c)).reverse = front := by
  rw [List.reverse_append, dropWhile_ne_append (by rwa [List.mem_reverse])
    (by rwa [List.head?_reverse]), List.reverse_reverse]

end Braces

structure Braced (o : List Char) : Prop where
  opens : o.head? = some '\x7b'
  closes : o.getLast? = some '\x7d'

section Extraction

variable {o front back : List Char}

theorem cleanJsonResponse_of_braced {raw : String} (ho : Braced o)
    (htext : withoutFences (trim raw.toList) = front ++ o ++ back)
    (hfront : '\x7b' ∉ front) (hback : '\x7d' ∉ back) : cleanJsonResponse raw = String.ofList o := by
  have hopened : (front ++ o ++ back).dropWhile (· ≠ '\x7b') = o ++ back := by
    rw [List.append_assoc, dropWhile_ne_append hfront]
    rw [List.head?_append, ho.opens]
    rfl
  have hmem : '\x7d' ∈ o ++ back :=
    List.mem_append_left _ (List.mem_of_getLast? ho.closes)
  simp only [cleanJsonResponse, htext, hopened, if_pos hmem, dropWhile_ne_reverse hback ho.closes]

theorem cleanJsonSlice_of_braced {raw : String} (ho : Braced o)
    (htext : withoutFences (trim raw.toList) = front ++ o ++ back)
    (hfront : '\x7b' ∉ front) (hback : '\x7d' ∉ back) :
    cleanJsonSlice raw = some (String.ofList o) := by
  obtain ⟨rest, hrest⟩ : ∃ rest, o = '\x7b' :: rest := List.head?_eq_some_iff.mp ho.opens
  obtain ⟨inside, hinside⟩ : ∃ inside, o = inside ++ ['\x7d'] := List.getLast?_eq_some_iff.mp ho.closes
  have hstart : Slicing.find '\x7b' (front ++ o ++ back) = some (Slicing.octets front) := by
    rw [hrest, List.append_assoc, List.cons_append, Slicing.find_append hfront]
  have hstop : Slicing.rfind '\x7d' (front ++ o ++ back)
      = some (Slicing.octets (front ++ inside)) := by
    have hsplit : front ++ o ++ back = (front ++ inside) ++ '\x7d' :: back := by simp [hinside]
    rw [hsplit, Slicing.rfind_append _ hback]
  have hend : Slicing.octets (front ++ inside) + 1 = Slicing.octets (front ++ o) := by
    rw [hinside, ← List.append_assoc, Slicing.octets_append (front ++ inside)]
    rfl
  have hle : Slicing.octets front ≤ Slicing.octets (front ++ inside) := by simp
  simp only [cleanJsonSlice, htext, hstart, hstop, if_pos hle, hend, Slicing.slice_octets,
    Option.map_some]

theorem cleanJsonSlice_eq (raw : String) : cleanJsonSlice raw = some (cleanJsonResponse raw) := by
  by_cases hopen : '\x7b' ∈ withoutFences (trim raw.toList)
  · obtain ⟨front, rest, htext, hfront⟩ := List.eq_append_cons_of_mem hopen
    by_cases hclose : '\x7d' ∈ rest
    · obtain ⟨mid, back, hrest, hback⟩ := eq_append_cons_of_mem_last hclose
      have ho : Braced ('\x7b' :: mid ++ ['\x7d']) := ⟨rfl, List.getLast?_concat⟩
      have hsplit : withoutFences (trim raw.toList)
          = front ++ ('\x7b' :: mid ++ ['\x7d']) ++ back := by simp [htext, hrest]
      rw [cleanJsonSlice_of_braced ho hsplit hfront hback,
        cleanJsonResponse_of_braced ho hsplit hfront hback]
    · have hnone : '\x7d' ∉ '\x7b' :: rest := by simp [hclose]
      have hopened : (front ++ '\x7b' :: rest).dropWhile (· ≠ '\x7b') = '\x7b' :: rest :=
        dropWhile_ne_append hfront rfl
      simp only [cleanJsonSlice, cleanJsonResponse, htext, hopened, if_neg hnone,
        Slicing.find_append hfront]
      by_cases hbefore : '\x7d' ∈ front
      · obtain ⟨early, late, hearly, hlate⟩ := eq_append_cons_of_mem_last hbefore
        have hback : '\x7d' ∉ late ++ '\x7b' :: rest := by
          rw [List.mem_append, not_or]
          exact ⟨hlate, hnone⟩
        have hstop : Slicing.rfind '\x7d' (front ++ '\x7b' :: rest) = some (Slicing.octets early) := by
          rw [hearly, List.append_assoc, List.cons_append, Slicing.rfind_append early hback]
        have hlt : Slicing.octets early < Slicing.octets front := by
          rw [hearly, Slicing.octets_append]
          exact Nat.lt_add_of_pos_right (Slicing.octets_pos (by simp))
        simp only [hstop, if_neg (Nat.not_le.mpr hlt)]
      · have hmem : '\x7d' ∉ front ++ '\x7b' :: rest := by
          rw [List.mem_append, not_or]
          exact ⟨hbefore, hnone⟩
        simp only [Slicing.rfind_eq_none.mpr hmem]
  · have hnone := Slicing.find_eq_none.mpr hopen
    simp only [cleanJsonSlice, cleanJsonResponse, hnone, dropWhile_ne_of_not_mem hopen,
      List.not_mem_nil, if_false]

end Extraction

section Recovery

variable {o text rest : List Char}

def Encloses (text o : List Char) : Prop :=
  ∃ front back, text = front ++ o ++ back ∧ '\x7b' ∉ front ∧ '\x7d' ∉ back

theorem Encloses.drop_front {front : List Char} (ho : Braced o) (h : Encloses (front ++ rest) o)
    (hfront : '\x7b' ∉ front) : Encloses rest o := by
  obtain ⟨before, after, htext, hbefore, hafter⟩ := h
  rw [List.append_assoc, List.append_eq_append_iff] at htext
  obtain ⟨mid, hmid, hrest⟩ | ⟨mid, hmid, hrest⟩ := htext
  · refine ⟨mid, after, by rw [hrest, List.append_assoc], ?_, hafter⟩
    intro hmem
    exact hbefore (hmid ▸ List.mem_append_right _ hmem)
  · cases mid with
    | nil => exact ⟨[], after, by rw [← List.nil_append rest, ← hrest, List.nil_append], by simp, hafter⟩
    | cons c mid =>
      -- the object begins inside what is dropped
      have hhead : (o ++ after).head? = some c := by rw [hrest]; rfl
      rw [List.head?_append, ho.opens] at hhead
      cases hhead
      exact absurd (hmid ▸ by simp) hfront

theorem Encloses.drop_back {back : List Char} (ho : Braced o) (h : Encloses (rest ++ back) o)
    (hback : '\x7d' ∉ back) : Encloses rest o := by
  obtain ⟨before, after, htext, hbefore, hafter⟩ := h
  rw [List.append_eq_append_iff] at htext
  obtain ⟨mid, hmid, hrest⟩ | ⟨mid, hmid, hrest⟩ := htext
  · cases hlast : mid.getLast? with
    | none =>
      rw [List.getLast?_eq_none_iff] at hlast
      refine ⟨before, [], ?_, hbefore, by simp⟩
      rw [hmid, hlast]
      simp
    | some c =>
      -- the object ends inside what is dropped
      have hend : (before ++ o).getLast? = some c := by rw [hmid, List.getLast?_append, hlast]; rfl
      rw [List.getLast?_append, ho.closes] at hend
      cases hend
      have hmem : '\x7d' ∈ back := hrest ▸ List.mem_append_left _ (List.mem_of_getLast? hlast)
      exact absurd hmem hback
  · refine ⟨before, mid, hmid, hbefore, ?_⟩
    intro hmem
    exact hafter (hrest ▸ List.mem_append_left _ hmem)

theorem Encloses.trim (ho : Braced o) (h : Encloses text o) : Encloses (trim text) o := by
  obtain ⟨front, back, htext, hfront, hback⟩ := exists_trim_append text
  have hopens : '\x7b' ∉ front := fun hmem => absurd (hfront _ hmem) (by decide)
  have hcloses : '\x7d' ∉ back := fun hmem => absurd (hback _ hmem) (by decide)
  rw [htext, List.append_assoc] at h
  exact (h.drop_front ho hopens).drop_back ho hcloses

theorem Encloses.stripPrefix {front : List Char} (ho : Braced o) (h : Encloses text o)
    (hfront : '\x7b' ∉ front) (hstrip : stripPrefix front text = some rest) : Encloses rest o := by
  obtain ⟨hstarts, hrest⟩ : front <+: text ∧ text.drop front.length = rest := by
    simpa [LocalAi.stripPrefix] using hstrip
  obtain ⟨back, hback⟩ := hstarts
  rw [← hback, List.drop_left] at hrest
  rw [← hback, hrest] at h
  exact h.drop_front ho hfront

theorem Encloses.stripSuffix {back : List Char} (ho : Braced o) (h : Encloses text o)
    (hback : '\x7d' ∉ back) : Encloses ((stripSuffix back text).getD text) o := by
  by_cases hsuffix : back <:+ text
  · obtain ⟨front, hfront⟩ := hsuffix
    have hstrip : LocalAi.stripSuffix back text = some front := by
      simp [LocalAi.stripSuffix, ← hfront]
    rw [hstrip]
    exact (hfront ▸ h).drop_back ho hback
  · rw [LocalAi.stripSuffix, if_neg hsuffix]
    exact h

theorem Encloses.withoutFences (ho : Braced o) (h : Encloses text o) :
    Encloses (withoutFences text) o := by
  rw [LocalAi.withoutFences]
  split
  · rename_i rest hjson
    exact ((h.stripPrefix ho (by decide) hjson).stripSuffix ho (by decide)).trim ho
  · split
    · rename_i rest hfence
      exact ((h.stripPrefix ho (by decide) hfence).stripSuffix ho (by decide)).trim ho
    · exact h

end Recovery

/-- The object comes out of every answer around it, by the characters and by the octets. -/
theorem cleanJsonResponse_recovers (p o s : String) (hp : '\x7b' ∉ p.toList) (ho : Braced o.toList)
    (hs : '\x7d' ∉ s.toList) :
    cleanJsonSlice (p ++ o ++ s) = some o ∧ cleanJsonResponse (p ++ o ++ s) = o := by
  have h : Encloses (p ++ o ++ s).toList o.toList :=
    ⟨p.toList, s.toList, by simp, hp, hs⟩
  obtain ⟨front, back, htext, hfront, hback⟩ := (h.trim ho).withoutFences ho
  have hclean : cleanJsonResponse (p ++ o ++ s) = o := by
    rw [cleanJsonResponse_of_braced ho htext hfront hback, String.ofList_toList]
  exact ⟨by rw [cleanJsonSlice_eq, hclean], hclean⟩

theorem cleanJsonResponse_recovers_fenced :
    cleanJsonSlice ("文子:\n```json\n" ++ "\x7b\"matched\": \x7b\x7d\x7d" ++ "\n```") =
        some "\x7b\"matched\": \x7b\x7d\x7d" ∧
      cleanJsonResponse ("文子:\n```json\n" ++ "\x7b\"matched\": \x7b\x7d\x7d" ++ "\n```") =
        "\x7b\"matched\": \x7b\x7d\x7d" :=
  cleanJsonResponse_recovers _ _ _ (by decide) ⟨by decide, by decide⟩ (by decide)

end Fumiko.LocalAi
