import Fumiko.EmailCore.InlineImages
import Mathlib.Data.List.Infix
import Mathlib.Data.List.Pairwise

namespace Fumiko.EmailCore.Parsing

open Fumiko.Common Fumiko.Foundation Fumiko.Foundation.FoldedReplacement Fumiko.Net

section References

structure Image where
  contentId : String
  mimeType : String
  base64 : String
  deriving DecidableEq

def Image.uri (image : Image) : List Char := (dataUri image.mimeType image.base64).toList

def isDelimiter (c : Char) : Bool := c = '"' || c = '\'' || isWhitespace c || c = ')' || c = '>'

def scheme : List Char := "cid:".toList

/-- HTML is read as characters and references, a reference as its scheme, as written, and its id. -/
inductive Piece
  | text (c : Char)
  | reference (written id : List Char)
  deriving DecidableEq

variable (folding : CaseFolding)

def referenceAt (html : List Char) : Option (List Char × List Char) :=
  let id := (html.drop 4).takeWhile (!isDelimiter ·)
  if folding.Starts scheme html ∧ id.length < (html.drop 4).length then some (html.take 4, id) else none

/-- `skip` characters belong to a reference that has been read. -/
def piecesFrom : (skip : Nat) → List Char → List Piece
  | _, [] => []
  | skip + 1, _ :: html => piecesFrom skip html
  | 0, c :: html =>
    match referenceAt folding (c :: html) with
    | some (written, id) => .reference written id :: piecesFrom (3 + id.length) html
    | none => .text c :: piecesFrom 0 html

def pieces (html : List Char) : List Piece := piecesFrom folding 0 html

def imageOf (images : List Image) (id : List Char) : Option Image :=
  images.find? fun image => image.contentId.toList.map folding.fold = id.map folding.fold

def Piece.render (images : List Image) : Piece → List Char
  | .text c => [c]
  | .reference written id =>
    match imageOf folding images id with
    | some image => image.uri
    | none => written ++ id

def render (images : List Image) (pieces : List Piece) : List Char :=
  pieces.flatMap (Piece.render folding images)

def substitute (images : List Image) (html : String) : String :=
  String.ofList (render folding images (pieces folding html.toList))

def inlineImages (images : List Image) (html : String) : String :=
  images.foldl (fun html image =>
    replaceCid folding image.contentId (dataUri image.mimeType image.base64) html) html

def Differ (image other : Image) : Prop :=
  image.contentId.toList.map folding.fold ≠ other.contentId.toList.map folding.fold

instance (image other : Image) : Decidable (Differ folding image other) :=
  inferInstanceAs (Decidable (_ ≠ _))

instance : Std.Symm (Differ folding) := ⟨fun _ _ => Ne.symm⟩

structure Drawn (pool : Image → Prop) (images : List Image) : Prop where
  pool : ∀ image ∈ images, pool image
  differ : images.Pairwise (Differ folding)

/-- With some images in place, the content id of another is met in the references to it only,
and its URI has no reference to a capture group that would change it there. -/
def Undisturbed (placed : List Image) (image : Image) : List Piece → Prop
  | [] => True
  | .text c :: pieces =>
    ¬folding.Starts (cidPattern image.contentId) (c :: render folding placed pieces) ∧
      Undisturbed placed image pieces
  | .reference written id :: pieces =>
    (if image.contentId.toList.map folding.fold = id.map folding.fold then
        expand (written ++ id) image.uri = image.uri
      else ∀ x y, (Piece.reference written id).render folding placed = x ++ y → y ≠ [] →
        ¬folding.Starts (cidPattern image.contentId) (y ++ render folding placed pieces)) ∧
      Undisturbed placed image pieces

theorem forall_suffix_iff {l : List Char} {p : List Char → Prop} :
    (∀ x y, l = x ++ y → y ≠ [] → p y) ↔ ∀ y ∈ l.tails, y ≠ [] → p y := by
  constructor
  · intro h y hy
    obtain ⟨x, hx⟩ := (List.mem_tails y l).mp hy
    exact h x y hx.symm
  · intro h x y hl
    exact h y ((List.mem_tails y l).mpr ⟨x, hl.symm⟩)

instance decidableUndisturbed (placed : List Image) (image : Image) :
    ∀ pieces, Decidable (Undisturbed folding placed image pieces)
  | [] => .isTrue trivial
  | .text c :: pieces =>
    have := decidableUndisturbed placed image pieces
    inferInstanceAs (Decidable (_ ∧ _))
  | .reference written id :: pieces =>
    have := decidableUndisturbed placed image pieces
    decidable_of_iff ((if image.contentId.toList.map folding.fold = id.map folding.fold then
        expand (written ++ id) image.uri = image.uri
      else ∀ y ∈ ((Piece.reference written id).render folding placed).tails, y ≠ [] →
        ¬folding.Starts (cidPattern image.contentId) (y ++ render folding placed pieces)) ∧
      Undisturbed folding placed image pieces) (by rw [Undisturbed, forall_suffix_iff])

def Clean (pool : Image → Prop) (html : String) : Prop :=
  ∀ placed image, Drawn folding pool (placed ++ [image]) →
    Undisturbed folding placed image (pieces folding html.toList)

end References

section Reading

variable {folding : CaseFolding} {html : List Char}

theorem isDelimiter_eq {c d : Char} (hd : isDelimiter d) (h : folding.fold c = folding.fold d) : c = d := by
  refine folding.uncased c d ?_ h
  simp only [isDelimiter, Bool.or_eq_true, decide_eq_true_eq] at hd
  rcases hd with (((rfl | rfl) | hwhite) | rfl) | rfl
  · exact Or.inr (by decide)
  · exact Or.inr (by decide)
  · exact Or.inl hwhite
  · exact Or.inr (by decide)
  · exact Or.inr (by decide)

theorem not_starts_delimiter {contentId : String} {d : Char} (hd : isDelimiter d) :
    ¬folding.Starts (cidPattern contentId) (d :: html) := by
  intro h
  have hfold : folding.fold 'c' = folding.fold d := (List.cons_prefix_cons.mp h).1
  exact absurd (isDelimiter_eq hd hfold ▸ hd) (by decide)

theorem not_isDelimiter_of_scheme {written : List Char}
    (h : written.map folding.fold = scheme.map folding.fold) {c : Char} (hc : c ∈ written) :
    isDelimiter c = false := by
  refine Bool.eq_false_iff.mpr fun hd => ?_
  have hmem : folding.fold c ∈ scheme.map folding.fold := h ▸ List.mem_map_of_mem hc
  obtain ⟨d, hscheme, hfold⟩ := List.mem_map.mp hmem
  have hplain : ∀ d ∈ scheme, isDelimiter d = false := forall_mem_of_all (by decide)
  have hletter := hplain d hscheme
  rw [isDelimiter_eq hd hfold, hd] at hletter
  cases hletter

inductive Delimited (folding : CaseFolding) : List Piece → Prop
  | nil : Delimited folding []
  | text {c : Char} {rest : List Piece} : Delimited folding rest → Delimited folding (.text c :: rest)
  | reference {written id : List Char} {d : Char} {rest : List Piece}
    (hscheme : written.map folding.fold = scheme.map folding.fold)
    (hid : ∀ c ∈ id, isDelimiter c = false) (hd : isDelimiter d) :
    Delimited folding (.text d :: rest) → Delimited folding (.reference written id :: .text d :: rest)

theorem referenceAt_eq_some {written id : List Char} (h : referenceAt folding html = some (written, id)) :
    written.map folding.fold = scheme.map folding.fold ∧ (∀ c ∈ id, isDelimiter c = false) ∧
      ∃ d rest, isDelimiter d ∧ html = written ++ id ++ d :: rest := by
  rw [referenceAt, Option.ite_none_right_eq_some] at h
  obtain ⟨⟨hstarts, hlength⟩, heq⟩ := h
  obtain ⟨written', rest, hhtml, hwritten⟩ := starts_iff.mp hstarts
  have hfour : written'.length = 4 := by simpa [scheme] using congrArg List.length hwritten
  obtain ⟨htake, htakeWhile⟩ := Prod.mk.inj (Option.some.inj heq)
  rw [hhtml, ← hfour, List.take_left] at htake
  rw [hhtml, ← hfour, List.drop_left] at htakeWhile hlength
  subst htake
  have hdrop : rest.dropWhile (!isDelimiter ·) ≠ [] := by
    intro hnil
    have hall := List.takeWhile_append_dropWhile (p := (!isDelimiter ·)) (l := rest)
    rw [hnil, List.append_nil] at hall
    rw [hall] at hlength
    exact Nat.lt_irrefl _ hlength
  obtain ⟨d, after, hafter⟩ := List.exists_cons_of_ne_nil hdrop
  refine ⟨hwritten, ?_, d, after, ?_, ?_⟩
  · intro c hc
    rw [← htakeWhile] at hc
    simpa using List.mem_takeWhile_imp hc
  · have hhead := List.head_dropWhile_not (!isDelimiter ·) hdrop
    simpa [hafter] using hhead
  · rw [hhtml, List.append_assoc, ← htakeWhile, ← hafter, List.takeWhile_append_dropWhile]

theorem piecesFrom_eq_drop {skip : Nat} : piecesFrom folding skip html = pieces folding (html.drop skip) := by
  induction html generalizing skip with
  | nil => rw [List.drop_nil, pieces, piecesFrom, piecesFrom]
  | cons c html ih =>
    cases skip with
    | zero => rfl
    | succ skip => exact ih

theorem pieces_text {c : Char} (h : referenceAt folding (c :: html) = none) :
    pieces folding (c :: html) = .text c :: pieces folding html := by
  rw [pieces, piecesFrom, h]
  rfl

theorem pieces_reference {c d : Char} {written id rest : List Char}
    (h : referenceAt folding (c :: html) = some (written, id)) (hhtml : c :: html = written ++ id ++ d :: rest) :
    pieces folding (c :: html) = .reference written id :: pieces folding (d :: rest) := by
  have hfour : written.length = 4 := by
    simpa [scheme] using congrArg List.length (referenceAt_eq_some h).1
  have hdrop : html.drop (3 + id.length) = d :: rest := by
    have hwhole : (c :: html).drop (4 + id.length) = d :: rest := by
      rw [hhtml, ← hfour, ← List.length_append, List.drop_left]
    rwa [show 4 + id.length = (3 + id.length) + 1 by omega, List.drop_succ_cons] at hwhole
  rw [pieces, piecesFrom, h, ← hdrop, ← piecesFrom_eq_drop]

theorem reading (folding : CaseFolding) {P : List Char → Prop} (nil : P [])
    (text : ∀ c html, referenceAt folding (c :: html) = none → P html → P (c :: html))
    (reference : ∀ c html written id d rest, referenceAt folding (c :: html) = some (written, id) →
      isDelimiter d → c :: html = written ++ id ++ d :: rest → P (d :: rest) → P (c :: html)) :
    (html : List Char) → P html
  | [] => nil
  | c :: html => by
    cases h : referenceAt folding (c :: html) with
    | none => exact text c html h (reading folding nil text reference html)
    | some found =>
      obtain ⟨written, id⟩ := found
      obtain ⟨hscheme, -, d, rest, hd, hhtml⟩ := referenceAt_eq_some h
      have hshorter : rest.length < html.length := by
        have hfour : written.length = 4 := by simpa [scheme] using congrArg List.length hscheme
        have hlength := congrArg List.length hhtml
        simp only [List.length_append, List.length_cons] at hlength
        omega
      exact reference c html written id d rest h hd hhtml (reading folding nil text reference (d :: rest))
termination_by html => html.length

theorem referenceAt_delimiter {d : Char} (hd : isDelimiter d) : referenceAt folding (d :: html) = none := by
  rw [referenceAt, if_neg]
  rintro ⟨hstarts, -⟩
  have hempty : folding.Starts (cidPattern "") (d :: html) := hstarts
  exact not_starts_delimiter hd hempty

theorem delimited_pieces : Delimited folding (pieces folding html) := by
  induction html using reading folding with
  | nil => exact .nil
  | text c html hnone ih =>
    rw [pieces_text hnone]
    exact .text ih
  | reference c html written id d rest hsome hd hhtml ih =>
    obtain ⟨hscheme, hid, -⟩ := referenceAt_eq_some hsome
    rw [pieces_reference hsome hhtml]
    rw [pieces_text (referenceAt_delimiter hd)] at ih ⊢
    exact .reference hscheme hid hd ih

theorem render_pieces : render folding [] (pieces folding html) = html := by
  induction html using reading folding with
  | nil => rfl
  | text c html hnone ih =>
    rw [pieces_text hnone]
    exact congrArg (List.cons c) ih
  | reference c html written id d rest hsome hd hhtml ih =>
    rw [pieces_reference hsome hhtml, hhtml]
    exact congrArg (written ++ id ++ ·) ih

end Reading

section Pass

variable {folding : CaseFolding} {placed : List Image} {image : Image} {parts : List Piece}

def Literal (uri : List Char) : Prop :=
  (∀ matched, expand matched uri = uri) ∨ ∀ c ∈ uri, isDelimiter c = false

theorem telling (folding : CaseFolding) (image : Image) :
    Telling folding (cidPattern image.contentId) image.uri := by
  obtain ⟨rest, huri⟩ : ∃ rest, image.uri = "data:".toList ++ rest := by
    refine ⟨image.mimeType.toList ++ (";base64,".toList ++ image.base64.toList), ?_⟩
    rw [Image.uri, dataUri, String.toList_append, String.toList_append, String.toList_append,
      List.append_assoc, List.append_assoc]
  have hexpand (matched : List Char) :
      expand matched image.uri = 'd' :: ("ata:".toList ++ expand matched rest) := by
    rw [huri, expand_append (by decide)]
    rfl
  refine ⟨List.cons_ne_nil _ _, ?_, fun matched => ?_⟩
  · intro matched c d rest rest' huri hpattern
    rw [hexpand] at huri
    have hd : 'c' = d := (List.cons.inj hpattern).1
    rw [← (List.cons.inj huri).1, ← hd, folding.lower 'd' (by decide), folding.lower 'c' (by decide)]
    decide
  · rw [hexpand]
    exact List.cons_ne_nil _ _

theorem render_cons (images : List Image) (piece : Piece) : render folding images (piece :: parts) =
    piece.render folding images ++ render folding images parts := List.flatMap_cons

theorem imageOf_append {id : List Char} : imageOf folding (placed ++ [image]) id =
    (imageOf folding placed id).or
      (if image.contentId.toList.map folding.fold = id.map folding.fold then some image else none) := by
  rw [imageOf, List.find?_append, List.find?_singleton]
  simp [imageOf]

theorem imageOf_eq_none (hdiffer : ∀ other ∈ placed, Differ folding other image) {id : List Char}
    (h : image.contentId.toList.map folding.fold = id.map folding.fold) :
    imageOf folding placed id = none := by
  refine List.find?_eq_none.mpr fun other hother => ?_
  rw [decide_eq_true_eq, ← h]
  exact hdiffer other hother

theorem render_reference_self (hdiffer : ∀ other ∈ placed, Differ folding other image)
    {written id : List Char} (h : image.contentId.toList.map folding.fold = id.map folding.fold) :
    (Piece.reference written id).render folding placed = written ++ id ∧
      (Piece.reference written id).render folding (placed ++ [image]) = image.uri := by
  rw [Piece.render, Piece.render, imageOf_append, imageOf_eq_none hdiffer h, if_pos h]
  exact ⟨rfl, rfl⟩

theorem render_reference_other {written id : List Char}
    (h : ¬image.contentId.toList.map folding.fold = id.map folding.fold) :
    (Piece.reference written id).render folding (placed ++ [image]) =
      (Piece.reference written id).render folding placed := by
  rw [Piece.render, Piece.render, imageOf_append, if_neg h, Option.or_none]

theorem replaceAll_reference_self {written id : List Char} {text : List Char}
    (hscheme : written.map folding.fold = scheme.map folding.fold)
    (h : image.contentId.toList.map folding.fold = id.map folding.fold) :
    replaceAll folding (cidPattern image.contentId) image.uri (written ++ id ++ text) =
      expand (written ++ id) image.uri ++
        replaceAll folding (cidPattern image.contentId) image.uri text := by
  refine replaceAll_match (List.cons_ne_nil _ _) ?_
  rw [List.map_append, hscheme, ← h, ← List.map_append]
  rfl

theorem replaceAll_render (hdiffer : ∀ other ∈ placed, Differ folding other image)
    (hparts : Delimited folding parts) (h : Undisturbed folding placed image parts) :
    replaceAll folding (cidPattern image.contentId) image.uri (render folding placed parts) =
      render folding (placed ++ [image]) parts := by
  induction hparts with
  | nil => rfl
  | text _ ih => exact (replaceAll_cons_iff (telling folding image)).mpr ⟨h.1, ih h.2⟩
  | @reference written id d rest hscheme hid hd _ ih =>
    obtain ⟨hfirst, hrest⟩ := h
    rw [render_cons placed (.reference written id), render_cons (placed ++ [image]) (.reference written id)]
    split at hfirst
    · next hself =>
      obtain ⟨hbefore, hafter⟩ := render_reference_self hdiffer hself
      rw [hbefore, hafter, replaceAll_reference_self hscheme hself, hfirst]
      exact congrArg (image.uri ++ ·) (ih hrest)
    · next hother =>
      rw [render_reference_other hother]
      exact (replaceAll_front_iff (telling folding image)).mpr ⟨hfirst, ih hrest⟩

theorem expand_eq_of_literal {uri matched rest rest' : List Char} {d : Char} (h : Literal uri)
    (hmatched : ∀ c ∈ matched, isDelimiter c = false) (hd : isDelimiter d)
    (heq : expand matched uri ++ d :: rest = uri ++ d :: rest') : expand matched uri = uri := by
  cases h with
  | inl hfixed => exact hfixed matched
  | inr hfree =>
    have hupTo {word after : List Char} (hword : ∀ c ∈ word, isDelimiter c = false) :
        (word ++ d :: after).takeWhile (!isDelimiter ·) = word := by
      rw [List.takeWhile_append_of_pos fun c hc => by rw [hword c hc]; rfl, List.takeWhile_cons, hd]
      exact List.append_nil word
    have hexpanded : ∀ c ∈ expand matched uri, isDelimiter c = false := fun c hc =>
      (mem_expandFrom hc).elim (hfree c) (hmatched c)
    rw [← hupTo hexpanded, heq, hupTo hfree]

theorem undisturbed_of_replaceAll (hliteral : Literal image.uri)
    (hdiffer : ∀ other ∈ placed, Differ folding other image) (hparts : Delimited folding parts)
    (h : replaceAll folding (cidPattern image.contentId) image.uri (render folding placed parts) =
      render folding (placed ++ [image]) parts) : Undisturbed folding placed image parts := by
  induction hparts with
  | nil => trivial
  | text _ ih =>
    obtain ⟨hfirst, hrest⟩ := (replaceAll_cons_iff (telling folding image)).mp h
    exact ⟨hfirst, ih hrest⟩
  | @reference written id d rest hscheme hid hd _ ih =>
    rw [render_cons placed (.reference written id), render_cons (placed ++ [image]) (.reference written id)] at h
    by_cases hself : image.contentId.toList.map folding.fold = id.map folding.fold
    · obtain ⟨hbefore, hafter⟩ := render_reference_self hdiffer hself
      rw [hbefore, hafter, replaceAll_reference_self hscheme hself] at h
      have hnext : replaceAll folding (cidPattern image.contentId) image.uri
          (render folding placed (.text d :: rest)) =
            d :: replaceAll folding (cidPattern image.contentId) image.uri (render folding placed rest) :=
        replaceAll_cons (not_starts_delimiter hd)
      have hplain : ∀ c ∈ written ++ id, isDelimiter c = false := fun c hc =>
        (List.mem_append.mp hc).elim (not_isDelimiter_of_scheme hscheme) (hid c)
      have hexpand : expand (written ++ id) image.uri = image.uri := by
        rw [hnext] at h
        exact expand_eq_of_literal hliteral hplain hd h
      rw [hexpand, List.append_cancel_left_eq] at h
      refine ⟨?_, ih h⟩
      rw [if_pos hself]
      exact hexpand
    · rw [render_reference_other hself] at h
      obtain ⟨hfirst, hrest⟩ := (replaceAll_front_iff (telling folding image)).mp h
      refine ⟨?_, ih hrest⟩
      rw [if_neg hself]
      exact hfirst

end Pass

section Runs

variable {folding : CaseFolding} {pool : Image → Prop} {html : String} {placed images : List Image}
  {image : Image}

theorem Drawn.left (h : Drawn folding pool (placed ++ images)) : Drawn folding pool placed :=
  ⟨fun image himage => h.pool image (List.mem_append_left images himage), (List.pairwise_append.mp h.differ).1⟩

theorem Drawn.differ_last (h : Drawn folding pool (placed ++ [image])) :
    ∀ other ∈ placed, Differ folding other image := fun other hother =>
  (List.pairwise_append.mp h.differ).2.2 other hother image List.mem_cons_self

theorem inlineImages_append : inlineImages folding (placed ++ images) html =
    inlineImages folding images (inlineImages folding placed html) := List.foldl_append

theorem inlineImages_concat : (inlineImages folding (placed ++ [image]) html).toList =
    replaceAll folding (cidPattern image.contentId) image.uri (inlineImages folding placed html).toList := by
  rw [inlineImages_append]
  exact String.toList_ofList

def Placed (folding : CaseFolding) (images : List Image) (html : String) : Prop :=
  inlineImages folding images html = substitute folding images html

theorem placed_nil : Placed folding [] html := by
  rw [Placed, substitute, render_pieces, String.ofList_toList]
  rfl

theorem placed_concat (hclean : Undisturbed folding placed image (pieces folding html.toList))
    (hdrawn : Drawn folding pool (placed ++ [image])) (h : Placed folding placed html) :
    Placed folding (placed ++ [image]) html := by
  refine String.toList_inj.mp ?_
  rw [inlineImages_concat, h, substitute, substitute, String.toList_ofList, String.toList_ofList]
  exact replaceAll_render hdrawn.differ_last delimited_pieces hclean

theorem undisturbed_of_placed (hliteral : Literal image.uri)
    (hdrawn : Drawn folding pool (placed ++ [image])) (h : Placed folding placed html)
    (hnext : Placed folding (placed ++ [image]) html) :
    Undisturbed folding placed image (pieces folding html.toList) := by
  refine undisturbed_of_replaceAll hliteral hdrawn.differ_last delimited_pieces ?_
  have hlists := congrArg String.toList hnext
  rwa [inlineImages_concat, h, substitute, substitute, String.toList_ofList, String.toList_ofList] at hlists

theorem placed_of_clean (hclean : Clean folding pool html) (hdrawn : Drawn folding pool images) :
    Placed folding images html := by
  induction images using List.reverseRecOn with
  | nil => exact placed_nil
  | append_singleton placed image ih =>
    exact placed_concat (hclean placed image hdrawn) hdrawn (ih hdrawn.left)

theorem clean_of_placed (hliteral : ∀ image, pool image → Literal image.uri)
    (h : ∀ images, Drawn folding pool images → Placed folding images html) : Clean folding pool html := by
  intro placed image hdrawn
  have himage : pool image := hdrawn.pool image (List.mem_append_right placed List.mem_cons_self)
  exact undisturbed_of_placed (hliteral image himage) hdrawn (h placed hdrawn.left) (h _ hdrawn)

end Runs

section Order

variable {folding : CaseFolding} {images images' : List Image}

theorem find?_perm {α : Type} {p : α → Bool} {l l' : List α} (h : l.Perm l')
    (hone : ∀ a ∈ l, ∀ b ∈ l, p a → p b → a = b) : l.find? p = l'.find? p := by
  induction h with
  | nil => rfl
  | cons a _ ih =>
    have hrest := ih fun b hb c hc => hone b (List.mem_cons_of_mem a hb) c (List.mem_cons_of_mem a hc)
    rw [List.find?_cons, List.find?_cons, hrest]
  | swap a b l =>
    rw [List.find?_cons, List.find?_cons, List.find?_cons, List.find?_cons]
    cases ha : p a with
    | false => rfl
    | true =>
      cases hb : p b with
      | false => rfl
      | true =>
        have heq := hone b List.mem_cons_self a (List.mem_cons_of_mem b List.mem_cons_self) hb ha
        rw [heq]
  | trans hleft _ ih ih' =>
    refine (ih hone).trans (ih' fun a ha b hb => ?_)
    exact hone a (hleft.mem_iff.mpr ha) b (hleft.mem_iff.mpr hb)

theorem substitute_perm {html : String} (h : images.Perm images') (hdiffer : images.Pairwise (Differ folding)) :
    substitute folding images html = substitute folding images' html := by
  have hone (id : List Char) : imageOf folding images id = imageOf folding images' id := by
    refine find?_perm h fun image himage other hother hid hid' => ?_
    rw [decide_eq_true_eq] at hid hid'
    by_contra hne
    exact hdiffer.forall himage hother hne (hid.trans hid'.symm)
  have hrender : Piece.render folding images = Piece.render folding images' := by
    funext piece
    cases piece with
    | text c => rfl
    | reference written id => rw [Piece.render, Piece.render, hone]
  rw [substitute, substitute, render, render, hrender]

end Order

end Fumiko.EmailCore.Parsing
