import Fumiko.Foundation.FoldedReplacement
import Fumiko.Net.Models

namespace Fumiko.EmailCore.Parsing

open Fumiko.Common Fumiko.Foundation Fumiko.Foundation.FoldedReplacement Fumiko.Net

structure AttachmentMeta where
  id : String
  filename : String
  mimeType : String
  size : Nat
  deriving DecidableEq

structure FullMessage where
  id : String
  bodyText : Option String
  bodyHtml : Option String
  attachments : List AttachmentMeta
  uniqueBodyHtml : Option String
  deriving DecidableEq

structure Codecs where
  folding : CaseFolding
  Encoding : Type
  utf8 : Encoding
  forLabel : String → Option Encoding
  decode : Encoding → List UInt8 → String
  urlSafeNoPad : String → Except String (List UInt8)
  urlSafe : String → Except String (List UInt8)
  standard : List UInt8 → String
  html2text : (html : String) → (width : Nat) → Option String

def greetingCodecs : Codecs where
  folding := asciiFolding
  Encoding := Unit
  utf8 := ()
  forLabel _ := none
  decode _ bytes := String.ofList (bytes.map fun byte => Char.ofNat byte.toNat)
  urlSafeNoPad data := if data = "aGk" then .ok [104, 105] else .error "Invalid padding"
  urlSafe _ := .error "Invalid padding"
  standard bytes := if bytes = [104, 105] then "aGk=" else ""
  html2text html _ := some (html ++ "\n")

/-- `trim_start_matches('<').trim_end_matches('>')` -/
def trimBrackets (contentId : String) : String :=
  String.ofList (((contentId.toList.dropWhile (· = '<')).reverse.dropWhile (· = '>')).reverse)

def dataUri (mimeType base64 : String) : String := "data:" ++ mimeType ++ ";base64," ++ base64

def cidPattern (contentId : String) : List Char := "cid:".toList ++ contentId.toList

/-- `Regex::new(&format!(r"(?i)cid:{}", regex::escape(content_id)))` and its `replace_all`. -/
def replaceCid (folding : CaseFolding) (contentId uri html : String) : String :=
  String.ofList (replaceAll folding (cidPattern contentId) uri.toList html.toList)

end Fumiko.EmailCore.Parsing
