import Fumiko.Foundation.PercentEncoding

namespace Fumiko.Foundation

structure Link where
  scheme : List Char
  host : List Char
  path : List Char
  query : Option (List Char)
  fragment : Option (List Char)

namespace Link

def cut (sep : Char) (text : List Char) : List Char × Option (List Char) :=
  (text.takeWhile (· ≠ sep), (text.dropWhile (· ≠ sep)).tail?)

def written (sep : Char) : Option (List Char) → List Char
  | none => []
  | some text => sep :: text

def write (link : Link) : List Char :=
  link.scheme ++ ':' :: '/' :: '/' :: (link.host ++ link.path) ++ written '?' link.query ++
    written '#' link.fragment

def read (url : List Char) : Option Link :=
  let (resource, fragment) := cut '#' url
  let (hierarchy, query) := cut '?' resource
  match cut ':' hierarchy with
  | (scheme, some ('/' :: '/' :: rest)) =>
    some ⟨scheme, rest.takeWhile (· ≠ '/'), rest.dropWhile (· ≠ '/'), query, fragment⟩
  | _ => none

structure WellFormed (link : Link) : Prop where
  scheme : ∀ c ∈ link.scheme, c ≠ ':' ∧ c ≠ '?' ∧ c ≠ '#'
  host : ∀ c ∈ link.host, c ≠ '/' ∧ c ≠ '?' ∧ c ≠ '#'
  path : ∀ c ∈ link.path, c ≠ '?' ∧ c ≠ '#'
  rooted : link.path = [] ∨ ∃ rest, link.path = '/' :: rest
  query : ∀ text ∈ link.query, '#' ∉ text

section Cut

variable {sep : Char} {text : List Char}

theorem takeWhile_of_not_mem (h : sep ∉ text) : text.takeWhile (· ≠ sep) = text := by
  rw [List.takeWhile_eq_self_iff]
  intro c hc
  rw [decide_eq_true_eq]
  rintro rfl
  exact h hc

theorem takeWhile_append_cons (h : sep ∉ text) (rest : List Char) :
    (text ++ sep :: rest).takeWhile (· ≠ sep) = text := by
  rw [List.takeWhile_append, takeWhile_of_not_mem h, if_pos rfl]
  simp

theorem dropWhile_of_not_mem (h : sep ∉ text) (rest : List Char) :
    (text ++ rest).dropWhile (· ≠ sep) = rest.dropWhile (· ≠ sep) := by
  rw [List.dropWhile_append_of_pos]
  intro c hc
  rw [decide_eq_true_eq]
  rintro rfl
  exact h hc

theorem cut_written (h : sep ∉ text) (rest : Option (List Char)) :
    cut sep (text ++ written sep rest) = (text, rest) := by
  rw [cut, dropWhile_of_not_mem h]
  cases rest with
  | none => rw [written, List.append_nil, takeWhile_of_not_mem h, List.dropWhile_nil, List.tail?_nil]
  | some rest =>
    rw [written, takeWhile_append_cons h]
    simp

end Cut

theorem read_write {link : Link} (h : link.WellFormed) : read link.write = some link := by
  obtain ⟨scheme, host, path, query, fragment⟩ := link
  obtain ⟨hscheme, hhost, hpath, hrooted, hquery⟩ := h
  have hhierarchy : '?' ∉ scheme ++ ':' :: '/' :: '/' :: (host ++ path) := by
    simp only [List.mem_append, List.mem_cons, not_or]
    exact ⟨fun hc => (hscheme _ hc).2.1 rfl, by decide, by decide, by decide,
      fun hc => (hhost _ hc).2.1 rfl, fun hc => (hpath _ hc).1 rfl⟩
  have hresource : '#' ∉ scheme ++ ':' :: '/' :: '/' :: (host ++ path) ++ written '?' query := by
    simp only [List.mem_append, List.mem_cons, not_or]
    refine ⟨⟨fun hc => (hscheme _ hc).2.2 rfl, by decide, by decide, by decide,
      fun hc => (hhost _ hc).2.2 rfl, fun hc => (hpath _ hc).2 rfl⟩, ?_⟩
    cases query with
    | none => exact List.not_mem_nil
    | some text => exact List.not_mem_cons_of_ne_of_not_mem (by decide) (hquery text rfl)
  have hcolon : ':' ∉ scheme := fun hc => (hscheme _ hc).1 rfl
  have hslash : '/' ∉ host := fun hc => (hhost _ hc).1 rfl
  have hname : (host ++ path).takeWhile (· ≠ '/') = host ∧ (host ++ path).dropWhile (· ≠ '/') = path := by
    rw [dropWhile_of_not_mem hslash]
    obtain rfl | ⟨rest, rfl⟩ := hrooted
    · exact ⟨(congrArg _ (List.append_nil host)).trans (takeWhile_of_not_mem hslash), rfl⟩
    · exact ⟨takeWhile_append_cons hslash rest, by simp⟩
  have hrest := cut_written hcolon (some ('/' :: '/' :: (host ++ path)))
  rw [written] at hrest
  simp only [read, write, cut_written hresource, cut_written hhierarchy, hrest, hname.1, hname.2]

end Link

end Fumiko.Foundation
