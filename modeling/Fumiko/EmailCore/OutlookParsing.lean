import Fumiko.EmailCore.InlineImages
import Fumiko.EmailCore.Outlook

namespace Fumiko.EmailCore.Outlook

open Fumiko.Common Fumiko.Foundation Fumiko.Net Fumiko.EmailCore.Parsing

structure OutlookBody where
  contentType : String
  content : String
  deriving DecidableEq

structure OutlookAttachment where
  id : String
  name : String
  contentType : Option String
  size : Option Int
  isInline : Option Bool
  contentId : Option String
  contentBytes : Option String
  deriving DecidableEq

def defaultContentType : String := "application/octet-stream"

def extractBody (codecs : Codecs) : Option OutlookBody → Option String × Option String
  | some body =>
    if body.contentType.toLower = "html" then (codecs.html2text body.content 80, some body.content)
    else if body.contentType.toLower = "text" then (some body.content, none)
    else (none, none)
  | none => (none, none)

/-- What is made of the listing that `extract_attachments` fetches. -/
def extractAttachments (value : List OutlookAttachment) : List AttachmentMeta :=
  (value.filter fun a => !a.isInline.getD false).map fun a =>
    ⟨a.id, a.name, a.contentType.getD defaultContentType, (a.size.getD 0).toNat⟩

def inlineAll (codecs : Codecs) : List OutlookAttachment → String → String
  | [], html => html
  | attachment :: attachments, html =>
    match attachment.contentId, attachment.contentBytes with
    | some contentId, some contentBytes =>
      inlineAll codecs attachments (replaceCid codecs.folding (trimBrackets contentId)
        (dataUri (attachment.contentType.getD defaultContentType) contentBytes) html)
    | _, _ => inlineAll codecs attachments html

def applyInlineImages (codecs : Codecs) (html : Option String) (attachments : List OutlookAttachment) :
    Option String :=
  html.map (inlineAll codecs attachments)

/-- `fetch_full_message_inner`, given what the three requests of it return. -/
def fetchFullMessageInner (codecs : Codecs) (messageId : String) (body uniqueBody : Option OutlookBody)
    (inlineAttachments listing : List OutlookAttachment) : Parsing.FullMessage where
  id := messageId
  bodyText := (extractBody codecs body).1
  bodyHtml := applyInlineImages codecs (extractBody codecs body).2 inlineAttachments
  attachments := extractAttachments listing
  uniqueBodyHtml := applyInlineImages codecs (extractBody codecs uniqueBody).2 inlineAttachments

end Fumiko.EmailCore.Outlook
