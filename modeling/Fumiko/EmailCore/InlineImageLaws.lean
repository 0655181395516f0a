import Fumiko.EmailCore.GmailParsing
import Fumiko.EmailCore.ImapParsing
import Fumiko.EmailCore.OutlookParsing
import Fumiko.EmailCore.Substitution

namespace Fumiko.EmailCore.Parsing

open Fumiko.Common Fumiko.Foundation Fumiko.Foundation.FoldedReplacement Fumiko.Net

section Providers

variable {α : Type} {folding : CaseFolding} {imageAt : α → Option Image} {pool : α → Prop}
  {html : String} {Result : List α → String → Prop}

def imagesOf (imageAt : α → Option Image) (pool : α → Prop) (image : Image) : Prop :=
  ∃ attachment, pool attachment ∧ imageAt attachment = some image

structure Exact (folding : CaseFolding) (imageAt : α → Option Image) (pool : α → Prop) (html : String)
    (Result : List α → String → Prop) : Prop where
  replaced : ∀ attachments result, (∀ attachment ∈ attachments, pool attachment) →
    (attachments.filterMap imageAt).Pairwise (Differ folding) → Result attachments result →
    result = substitute folding (attachments.filterMap imageAt) html
  unordered : ∀ attachments attachments' result result', (∀ attachment ∈ attachments, pool attachment) →
    (attachments.filterMap imageAt).Pairwise (Differ folding) → attachments.Perm attachments' →
    Result attachments result → Result attachments' result' → result = result'

structure Inlines (folding : CaseFolding) (imageAt : α → Option Image) (html : String)
    (Result : List α → String → Prop) : Prop where
  sound : ∀ attachments result, Result attachments result →
    result = inlineImages folding (attachments.filterMap imageAt) html
  complete : ∀ attachments, (∀ attachment ∈ attachments, (imageAt attachment).isSome) →
    ∃ result, Result attachments result

theorem drawn_filterMap {attachments : List α} (hpool : ∀ attachment ∈ attachments, pool attachment)
    (hdiffer : (attachments.filterMap imageAt).Pairwise (Differ folding)) :
    Drawn folding (imagesOf imageAt pool) (attachments.filterMap imageAt) := by
  refine ⟨fun image himage => ?_, hdiffer⟩
  obtain ⟨attachment, hattachment, heq⟩ := List.mem_filterMap.mp himage
  exact ⟨attachment, hpool attachment hattachment, heq⟩

theorem exact_of_clean (h : Inlines folding imageAt html Result)
    (hclean : Clean folding (imagesOf imageAt pool) html) : Exact folding imageAt pool html Result := by
  have hreplaced (attachments : List α) (result : String)
      (hpool : ∀ attachment ∈ attachments, pool attachment)
      (hdiffer : (attachments.filterMap imageAt).Pairwise (Differ folding))
      (hresult : Result attachments result) :
      result = substitute folding (attachments.filterMap imageAt) html :=
    (h.sound attachments result hresult).trans (placed_of_clean hclean (drawn_filterMap hpool hdiffer))
  refine ⟨hreplaced, fun attachments attachments' result result' hpool hdiffer hperm hresult hresult' => ?_⟩
  have hpool' : ∀ attachment ∈ attachments', pool attachment := fun attachment hattachment =>
    hpool attachment (hperm.mem_iff.mpr hattachment)
  have hdiffer' : (attachments'.filterMap imageAt).Pairwise (Differ folding) :=
    (hperm.filterMap imageAt).pairwise hdiffer fun h => Ne.symm h
  rw [hreplaced attachments result hpool hdiffer hresult,
    hreplaced attachments' result' hpool' hdiffer' hresult']
  exact substitute_perm (hperm.filterMap imageAt) hdiffer

theorem exists_attachments {images : List Image} (h : ∀ image ∈ images, imagesOf imageAt pool image) :
    ∃ attachments : List α, (∀ attachment ∈ attachments, pool attachment) ∧
      (∀ attachment ∈ attachments, (imageAt attachment).isSome) ∧ attachments.filterMap imageAt = images := by
  induction images with
  | nil => exact ⟨[], by simp, by simp, rfl⟩
  | cons image images ih =>
    obtain ⟨attachments, hpool, hsome, himages⟩ := ih fun other hother => h other (List.mem_cons_of_mem image hother)
    obtain ⟨attachment, hattachment, himage⟩ := h image List.mem_cons_self
    refine ⟨attachment :: attachments, ?_, ?_, ?_⟩
    · exact List.forall_mem_cons.mpr ⟨hattachment, hpool⟩
    · exact List.forall_mem_cons.mpr ⟨himage ▸ rfl, hsome⟩
    · rw [List.filterMap_cons_some himage, himages]

theorem clean_of_exact (h : Inlines folding imageAt html Result)
    (hliteral : ∀ image, imagesOf imageAt pool image → Literal image.uri)
    (hexact : Exact folding imageAt pool html Result) : Clean folding (imagesOf imageAt pool) html := by
  refine clean_of_placed hliteral fun images hdrawn => ?_
  obtain ⟨attachments, hpool, hsome, himages⟩ := exists_attachments hdrawn.pool
  obtain ⟨result, hresult⟩ := h.complete attachments hsome
  have hreplaced := hexact.replaced attachments result hpool (himages ▸ hdrawn.differ) hresult
  rw [h.sound attachments result hresult, himages] at hreplaced
  exact hreplaced

end Providers

end Fumiko.EmailCore.Parsing

namespace Fumiko.EmailCore.Gmail

open Fumiko.Common Fumiko.Foundation Fumiko.Net Fumiko.EmailCore.Parsing

variable {codecs : Codecs} {service : AttachmentService} {messageId : String}

def imageAt (codecs : Codecs) (service : AttachmentService) (messageId : String) (part : InlinePart) :
    Option Image :=
  match fetchAttachment service messageId part.2.2 with
  | .error _ => none
  | .ok attachment =>
    match decodeUrlSafe codecs "attachment" attachment.data with
    | .error _ => none
    | .ok bytes => some ⟨part.1, part.2.1, codecs.standard bytes⟩

theorem inlineUri_cases (part : InlinePart) :
    (∃ image : Image, imageAt codecs service messageId part = some image ∧ part.1 = image.contentId ∧
      inlineUri codecs service messageId part = .ok (dataUri image.mimeType image.base64)) ∨
    imageAt codecs service messageId part = none ∧
      ∃ e, inlineUri codecs service messageId part = .error e := by
  rw [imageAt, inlineUri]
  cases fetchAttachment service messageId part.2.2 with
  | error e => exact Or.inr ⟨rfl, e, rfl⟩
  | ok attachment =>
    dsimp only [bind, Except.bind]
    cases decodeUrlSafe codecs "attachment" attachment.data with
    | error e => exact Or.inr ⟨rfl, e, rfl⟩
    | ok bytes => exact Or.inl ⟨_, rfl, rfl, rfl⟩

theorem inlineParts_cons {part : InlinePart} {parts : List InlinePart} {html : String} {image : Image}
    (h : imageAt codecs service messageId part = some image) :
    inlineParts codecs service messageId (part :: parts) html = inlineParts codecs service messageId parts
      (replaceCid codecs.folding image.contentId (dataUri image.mimeType image.base64) html) := by
  cases inlineUri_cases part with
  | inl hfetched =>
    obtain ⟨image', himage, hid, huri⟩ := hfetched
    cases himage.symm.trans h
    rw [inlineParts, huri, hid]
    rfl
  | inr hfailed =>
    rw [hfailed.1] at h
    cases h

theorem inlineParts_eq_inlineImages {parts : List InlinePart} {html : String}
    (h : ∀ part ∈ parts, (imageAt codecs service messageId part).isSome) :
    inlineParts codecs service messageId parts html =
      .ok (inlineImages codecs.folding (parts.filterMap (imageAt codecs service messageId)) html) := by
  induction parts generalizing html with
  | nil => rfl
  | cons part parts ih =>
    obtain ⟨hpart, hrest⟩ := List.forall_mem_cons.mp h
    obtain ⟨image, himage⟩ := Option.isSome_iff_exists.mp hpart
    rw [inlineParts_cons himage, ih hrest, List.filterMap_cons_some himage]
    rfl

theorem imageAt_isSome_of_ok {parts : List InlinePart} {html result : String}
    (h : inlineParts codecs service messageId parts html = .ok result) :
    ∀ part ∈ parts, (imageAt codecs service messageId part).isSome := by
  induction parts generalizing html with
  | nil => simp
  | cons part parts ih =>
    cases inlineUri_cases part with
    | inl hfetched =>
      obtain ⟨image, himage, -, -⟩ := hfetched
      rw [inlineParts_cons himage] at h
      exact List.forall_mem_cons.mpr ⟨himage ▸ rfl, ih h⟩
    | inr hfailed =>
      obtain ⟨-, e, he⟩ := hfailed
      rw [inlineParts, he] at h
      cases h

theorem inlines (html : String) : Inlines codecs.folding (imageAt codecs service messageId) html
    fun parts result => applyInlineImages codecs service messageId (some html) parts = .ok (some result) := by
  constructor
  · intro parts result h
    rw [applyInlineImages] at h
    cases hinlined : inlineParts codecs service messageId parts html with
    | error e =>
      rw [hinlined] at h
      cases h
    | ok inlined =>
      have himages := hinlined.symm.trans (inlineParts_eq_inlineImages (imageAt_isSome_of_ok hinlined))
      rw [hinlined] at h
      cases h
      exact Except.ok.inj himages
  · intro parts h
    refine ⟨inlineImages codecs.folding (parts.filterMap (imageAt codecs service messageId)) html, ?_⟩
    rw [applyInlineImages, inlineParts_eq_inlineImages h]
    rfl

end Fumiko.EmailCore.Gmail

namespace Fumiko.EmailCore.Outlook

open Fumiko.Common Fumiko.Foundation Fumiko.Net Fumiko.EmailCore.Parsing

def imageAt (attachment : OutlookAttachment) : Option Image := do
  let contentId ← attachment.contentId
  let contentBytes ← attachment.contentBytes
  some ⟨trimBrackets contentId, attachment.contentType.getD defaultContentType, contentBytes⟩

theorem inlineAll_eq {codecs : Codecs} {attachments : List OutlookAttachment} {html : String} :
    inlineAll codecs attachments html =
      inlineImages codecs.folding (attachments.filterMap imageAt) html := by
  induction attachments generalizing html with
  | nil => rfl
  | cons attachment attachments ih =>
    cases hid : attachment.contentId with
    | none => simp [inlineAll, imageAt, hid, ih]
    | some contentId =>
      cases hbytes : attachment.contentBytes with
      | none => simp [inlineAll, imageAt, hid, hbytes, ih]
      | some contentBytes => simp [inlineAll, imageAt, inlineImages, hid, hbytes, ih]

theorem inlines (codecs : Codecs) (html : String) : Inlines codecs.folding imageAt html
    fun attachments result => applyInlineImages codecs (some html) attachments = some result := by
  refine ⟨fun attachments result h => ?_, fun attachments _ => ⟨_, rfl⟩⟩
  exact (Option.some.inj h).symm.trans inlineAll_eq

end Fumiko.EmailCore.Outlook

namespace Fumiko.EmailCore.Imap

open Fumiko.Common Fumiko.Foundation Fumiko.Net Fumiko.EmailCore.Parsing

def imageAt (codecs : Codecs) (part : ParsedPart) : Option Image :=
  part.contentId.map fun cid => ⟨trimBrackets cid, mimeTypeOf part, codecs.standard part.contents⟩

theorem walkAttachments_fst {codecs : Codecs} {uid : String} {idx : Nat} {parts : List ParsedPart}
    {html : String} {attachments : List AttachmentMeta} :
    (walkAttachments codecs uid idx parts (some html) attachments).1 =
      some (inlineImages codecs.folding (parts.filterMap (imageAt codecs)) html) := by
  induction parts generalizing idx html attachments with
  | nil => rfl
  | cons part parts ih =>
    cases hid : part.contentId with
    | none => simp [walkAttachments, imageAt, hid, ih]
    | some cid => simp [walkAttachments, imageAt, inlineImages, partUri, hid, ih]

theorem inlines (codecs : Codecs) (uid : String) (bodyText : Option String) (html : String) :
    Inlines codecs.folding (imageAt codecs) html
      fun parts result => (fullMessageOf codecs uid ⟨some html, bodyText, parts⟩).bodyHtml = some result := by
  refine ⟨fun parts result h => ?_, fun parts _ => ⟨_, walkAttachments_fst⟩⟩
  exact Option.some.inj (h.symm.trans walkAttachments_fst)

end Fumiko.EmailCore.Imap

namespace Fumiko.EmailCore.Parsing

open Fumiko.Common Fumiko.Foundation Fumiko.Foundation.FoldedReplacement Fumiko.Net

/-- Each provider substitutes the images of its attachments as it should if none of them is disturbed
by others that are already in place, and only then where the URIs are literal. -/
theorem inline_images_exact_iff (codecs : Codecs) (html : String) :
    (∀ service messageId pool,
      let images := imagesOf (Gmail.imageAt codecs service messageId) pool
      let exact := Exact codecs.folding (Gmail.imageAt codecs service messageId) pool html
        fun parts result => Gmail.applyInlineImages codecs service messageId (some html) parts = .ok (some result)
      (Clean codecs.folding images html → exact) ∧
        ((∀ image, images image → Literal image.uri) → exact → Clean codecs.folding images html)) ∧
    (∀ pool,
      let images := imagesOf Outlook.imageAt pool
      let exact := Exact codecs.folding Outlook.imageAt pool html
        fun attachments result => Outlook.applyInlineImages codecs (some html) attachments = some result
      (Clean codecs.folding images html → exact) ∧
        ((∀ image, images image → Literal image.uri) → exact → Clean codecs.folding images html)) ∧
    ∀ uid bodyText pool,
      let images := imagesOf (Imap.imageAt codecs) pool
      let exact := Exact codecs.folding (Imap.imageAt codecs) pool html
        fun parts result => (Imap.fullMessageOf codecs uid ⟨some html, bodyText, parts⟩).bodyHtml = some result
      (Clean codecs.folding images html → exact) ∧
        ((∀ image, images image → Literal image.uri) → exact → Clean codecs.folding images html) := by
  refine ⟨fun service messageId pool => ?_, fun pool => ?_, fun uid bodyText pool => ?_⟩
  · exact ⟨exact_of_clean (Gmail.inlines html), clean_of_exact (Gmail.inlines html)⟩
  · exact ⟨exact_of_clean (Outlook.inlines codecs html), clean_of_exact (Outlook.inlines codecs html)⟩
  · exact ⟨exact_of_clean (Imap.inlines codecs uid bodyText html),
      clean_of_exact (Imap.inlines codecs uid bodyText html)⟩

def picture (contentId base64 : String) : Outlook.OutlookAttachment :=
  ⟨contentId, contentId ++ ".png", some "image/png", none, some true, some contentId, some base64⟩

def logo : Image := ⟨"logo", "image/png", "aGk="⟩

def stamp : Image := ⟨"stamp", "image/png", "aG8="⟩

theorem placed_of_forall_eq {folding : CaseFolding} {placed : List Image} {image : Image}
    (h : ∀ other ∈ placed, other = image) (hdiffer : placed.Pairwise (Differ folding)) :
    placed = [] ∨ placed = [image] := by
  cases hdiffer with
  | nil => exact Or.inl rfl
  | @cons first rest hfirst _ =>
    rw [List.forall_mem_cons] at h
    cases rest with
    | nil => exact Or.inr (congrArg (· :: []) h.1)
    | cons second rest =>
      have hsecond : second = image := h.2 second List.mem_cons_self
      exact absurd (h.1.trans hsecond.symm ▸ rfl) (hfirst second List.mem_cons_self)

theorem logo_and_stamp_inlined : Exact greetingCodecs.folding Outlook.imageAt
    (· ∈ [picture "logo" "aGk=", picture "stamp" "aG8="]) "'cid:logo''cid:stamp'"
    fun attachments result => Outlook.applyInlineImages greetingCodecs (some "'cid:logo''cid:stamp'") attachments =
      some result := by
  refine ((inline_images_exact_iff greetingCodecs "'cid:logo''cid:stamp'").2.1 _).1 fun placed image hdrawn => ?_
  have hpool : ∀ other ∈ placed ++ [image], other = logo ∨ other = stamp := by
    intro other hother
    obtain ⟨attachment, hattachment, himage⟩ := hdrawn.pool other hother
    simp only [List.mem_cons, List.not_mem_nil, or_false] at hattachment
    obtain rfl | rfl := hattachment
    · exact Or.inl (Option.some.inj himage).symm
    · exact Or.inr (Option.some.inj himage).symm
  have hplaced := (List.pairwise_append.mp hdrawn.differ).1
  have hothers (other : Image) (hother : other ∈ placed) : other ≠ image := by
    rintro rfl
    exact hdrawn.differ_last other hother rfl
  have hbefore (other : Image) (hother : other ∈ placed) := hpool other (List.mem_append_left [image] hother)
  obtain rfl | rfl := hpool image (List.mem_append_right placed List.mem_cons_self)
  · obtain rfl | rfl := placed_of_forall_eq
      (fun other hother => (hbefore other hother).resolve_left (hothers other hother)) hplaced
    · decide
    · decide
  · obtain rfl | rfl := placed_of_forall_eq
      (fun other hother => (hbefore other hother).resolve_right (hothers other hother)) hplaced
    · decide
    · decide

theorem shorter_id_taken_for_longer :
    Outlook.applyInlineImages greetingCodecs (some "'cid:ab'") [picture "a" "aGk=", picture "ab" "aG8="] =
        some "'data:image/png;base64,aGk=b'" ∧
      Outlook.applyInlineImages greetingCodecs (some "'cid:ab'") [picture "ab" "aG8=", picture "a" "aGk="] =
        some "'data:image/png;base64,aG8='" ∧
      ¬∀ pool, Exact greetingCodecs.folding Outlook.imageAt pool "'cid:ab'" fun attachments result =>
        Outlook.applyInlineImages greetingCodecs (some "'cid:ab'") attachments = some result := by
  have hfirst : Outlook.applyInlineImages greetingCodecs (some "'cid:ab'")
      [picture "a" "aGk=", picture "ab" "aG8="] = some "'data:image/png;base64,aGk=b'" := by decide
  have hlast : Outlook.applyInlineImages greetingCodecs (some "'cid:ab'")
      [picture "ab" "aG8=", picture "a" "aGk="] = some "'data:image/png;base64,aG8='" := by decide
  refine ⟨hfirst, hlast, fun h => ?_⟩
  have hsame := (h fun _ => True).unordered _ _ _ _ (fun _ _ => trivial) (by decide) (.swap _ _ []) hfirst hlast
  exact absurd hsame (by decide)

end Fumiko.EmailCore.Parsing
