import Fumiko.EmailCore.Gmail
import Fumiko.EmailCore.InlineImages

namespace Fumiko.EmailCore.Gmail

open Fumiko.Common Fumiko.Foundation Fumiko.Net Fumiko.EmailCore.Parsing

structure MessagePartBody where
  data : Option String
  attachmentId : Option String
  size : Option Nat
  deriving DecidableEq

inductive MessagePartFull
  | mk (mimeType : String) (filename : Option String) (headers : Option (List MessageHeader))
    (body : Option MessagePartBody) (parts : List MessagePartFull)

namespace MessagePartFull

def mimeType : MessagePartFull → String
  | mk mimeType _ _ _ _ => mimeType

def filename : MessagePartFull → Option String
  | mk _ filename _ _ _ => filename

def headers : MessagePartFull → Option (List MessageHeader)
  | mk _ _ headers _ _ => headers

def body : MessagePartFull → Option MessagePartBody
  | mk _ _ _ body _ => body

def parts : MessagePartFull → List MessagePartFull
  | mk _ _ _ _ parts => parts

end MessagePartFull

structure AttachmentDataResponse where
  data : String

section Parts

def hasContent (part : MessagePartFull) : Bool :=
  match part.body with
  | some body => body.data.isSome || body.attachmentId.isSome
  | none => false

mutual

def findPart (targetMime : String) : MessagePartFull → Option MessagePartFull
  | .mk mimeType filename headers body parts =>
    let part := MessagePartFull.mk mimeType filename headers body parts
    if part.mimeType = targetMime ∧ hasContent part then some part else findPartIn targetMime parts

def findPartIn (targetMime : String) : List MessagePartFull → Option MessagePartFull
  | [] => none
  | part :: parts =>
    match findPart targetMime part with
    | some found => some found
    | none => findPartIn targetMime parts

end

def contentId (part : MessagePartFull) : Option String :=
  (part.headers.bind (headerValue · "Content-ID")).map trimBrackets

abbrev InlinePart := String × String × String

/-- What `collect_attachments` adds to its two lists for the part itself. -/
def collectPart (part : MessagePartFull) (lists : List AttachmentMeta × List InlinePart) :
    List AttachmentMeta × List InlinePart :=
  match part.filename, part.body with
  | some filename, some body =>
    if filename.isEmpty then lists
    else match body.attachmentId with
      | none => lists
      | some attachmentId =>
        match contentId part with
        | some cid => (lists.1, lists.2 ++ [(cid, part.mimeType, attachmentId)])
        | none => (lists.1 ++ [⟨attachmentId, filename, part.mimeType, body.size.getD 0⟩], lists.2)
  | _, _ => lists

mutual

def collectAttachments :
    MessagePartFull → List AttachmentMeta × List InlinePart → List AttachmentMeta × List InlinePart
  | .mk mimeType filename headers body parts, lists =>
    collectAll parts (collectPart (.mk mimeType filename headers body parts) lists)

def collectAll :
    List MessagePartFull → List AttachmentMeta × List InlinePart → List AttachmentMeta × List InlinePart
  | [], lists => lists
  | child :: children, lists => collectAll children (collectAttachments child lists)

end

end Parts

section Contents

variable (codecs : Codecs)

def charsetForPart (part : MessagePartFull) : codecs.Encoding :=
  let label : Option String := do
    let headers ← part.headers
    let contentType ← headerValue headers "Content-Type"
    (fields ';' contentType.toList).findSome? fun segment =>
      if "charset=".toList <+: trim segment then
        some (String.ofList ((((trim segment).drop 8).dropWhile (· = '"')).reverse.dropWhile (· = '"')).reverse)
      else none
  (label.bind codecs.forLabel).getD codecs.utf8

def decodeUrlSafe (what data : String) : Except ProviderError (List UInt8) :=
  let cleanData := String.ofList (trim data.toList)
  match codecs.urlSafeNoPad cleanData with
  | .ok bytes => .ok bytes
  | .error _ =>
    match codecs.urlSafe cleanData with
    | .ok bytes => .ok bytes
    | .error e => .error (.invalidData ("invalid Base64 " ++ what ++ ": " ++ e))

def decodeBody (data : String) (encoding : codecs.Encoding) : Except ProviderError String := do
  let bytes ← decodeUrlSafe codecs "body" data
  pure (codecs.decode encoding bytes)

def attachmentUrl (messageId attachmentId : String) : String :=
  baseUrl ++ "/messages/" ++ messageId ++ "/attachments/" ++ attachmentId

abbrev AttachmentService := (attachmentId : String) → HttpReply AttachmentDataResponse

def fetchAttachment (service : AttachmentService) (messageId attachmentId : String) :
    Except ProviderError AttachmentDataResponse :=
  match (service attachmentId).json (attachmentUrl messageId attachmentId) with
  | .ok attachment => .ok attachment
  | .error e => .error (.ofReqwest e)

def extractPartContent (service : AttachmentService) (messageId : String) (part : MessagePartFull) :
    Except ProviderError (Option String) :=
  match part.body with
  | none => .ok none
  | some body =>
    let encoding := charsetForPart codecs part
    match body.data, body.attachmentId with
    | some data, _ => (decodeBody codecs data encoding).map some
    | none, some attachmentId => do
      let attachment ← fetchAttachment service messageId attachmentId
      (decodeBody codecs attachment.data encoding).map some
    | none, none => .ok none

def inlineUri (service : AttachmentService) (messageId : String) (part : InlinePart) :
    Except ProviderError String := do
  let attachment ← fetchAttachment service messageId part.2.2
  let bytes ← decodeUrlSafe codecs "attachment" attachment.data
  pure (dataUri part.2.1 (codecs.standard bytes))

def inlineParts (service : AttachmentService) (messageId : String) :
    List InlinePart → String → Except ProviderError String
  | [], html => .ok html
  | part :: parts, html => do
    let uri ← inlineUri codecs service messageId part
    inlineParts service messageId parts (replaceCid codecs.folding part.1 uri html)

def applyInlineImages (service : AttachmentService) (messageId : String) (html : Option String)
    (parts : List InlinePart) : Except ProviderError (Option String) :=
  match html with
  | none => .ok none
  | some html => (inlineParts codecs service messageId parts html).map some

def fetchBody (service : AttachmentService) (messageId targetMime : String) (payload : MessagePartFull) :
    Except ProviderError (Option String) :=
  match findPart targetMime payload with
  | some part => extractPartContent codecs service messageId part
  | none => .ok none

/-- `fetch_full_message_inner`, once the message has been fetched. -/
def fetchFullMessageInner (service : AttachmentService) (messageId : String)
    (payload : Option MessagePartFull) : Except ProviderError Parsing.FullMessage := do
  match payload with
  | none => pure ⟨messageId, none, none, [], none⟩
  | some payload =>
    let bodyHtml ← fetchBody codecs service messageId "text/html" payload
    let bodyText ← match findPart "text/plain" payload with
      | some part => extractPartContent codecs service messageId part
      | none => pure (bodyHtml.bind fun html => codecs.html2text html 80)
    let (attachments, inlined) := collectAttachments payload ([], [])
    let bodyHtml ← applyInlineImages codecs service messageId bodyHtml inlined
    pure ⟨messageId, bodyText, bodyHtml, attachments, none⟩

end Contents

end Fumiko.EmailCore.Gmail
