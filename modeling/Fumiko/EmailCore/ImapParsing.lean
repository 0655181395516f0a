import Fumiko.EmailCore.Imap
import Fumiko.EmailCore.InlineImages

namespace Fumiko.EmailCore.Imap

open Fumiko.Common Fumiko.Foundation Fumiko.Net Fumiko.EmailCore.Parsing

/-- An element of `parsed.attachments()`.  The content type is a type and perhaps a subtype. -/
structure ParsedPart where
  attachmentName : Option String
  contentType : Option (String × Option String)
  contentId : Option String
  contents : List UInt8
  deriving DecidableEq

/-- What the parser library makes of the bytes of a message: its first bodies and its attachments. -/
structure ParsedMessage where
  bodyHtml : Option String
  bodyText : Option String
  attachments : List ParsedPart
  deriving DecidableEq

def mimeTypeOf (part : ParsedPart) : String :=
  match part.contentType with
  | some (type, some subtype) => type ++ "/" ++ subtype
  | some (type, none) => type
  | none => "application/octet-stream"

def partUri (codecs : Codecs) (part : ParsedPart) : String :=
  dataUri (mimeTypeOf part) (codecs.standard part.contents)

def metaOf (uid : String) (idx : Nat) (part : ParsedPart) : AttachmentMeta :=
  let filename := part.attachmentName.getD "attachment"
  ⟨uid ++ "_" ++ Nat.repr idx ++ "_" ++ filename, filename, mimeTypeOf part, part.contents.length⟩

/-- The loop over the attachments.  `idx` counts them, and the HTML and the list are its accumulators. -/
def walkAttachments (codecs : Codecs) (uid : String) :
    (idx : Nat) → List ParsedPart → Option String → List AttachmentMeta →
      Option String × List AttachmentMeta
  | _, [], html, attachments => (html, attachments)
  | idx, part :: parts, html, attachments =>
    match part.contentId with
    | some cid =>
      walkAttachments codecs uid (idx + 1) parts
        (html.map (replaceCid codecs.folding (trimBrackets cid) (partUri codecs part))) attachments
    | none =>
      walkAttachments codecs uid (idx + 1) parts html (attachments ++ [metaOf uid idx part])

/-- The rest of `fetch_full_message`, once the message has been fetched and parsed. -/
def fullMessageOf (codecs : Codecs) (uid : String) (parsed : ParsedMessage) : Parsing.FullMessage :=
  let bodyText := parsed.bodyText <|> parsed.bodyHtml.bind fun html => codecs.html2text html 80
  let walked := walkAttachments codecs uid 0 parsed.attachments parsed.bodyHtml []
  { id := uid, bodyText, bodyHtml := walked.1, attachments := walked.2, uniqueBodyHtml := none }

end Fumiko.EmailCore.Imap
