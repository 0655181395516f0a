import Fumiko.Foundation.Replacement

namespace Fumiko.App

open Fumiko.Foundation.Replacement

section StyleRegex

/-- A letter of the pattern under the flag `i`: its two ASCII cases, and for `s` the long s
that Unicode folds to it. -/
def letterMatches (letter c : Char) : Bool := c.toLower = letter || (letter = 's' && c = 'ſ')

def matchLiteral : List Char → List Char → Option (List Char)
  | [], text => some text
  | _ :: _, [] => none
  | letter :: letters, c :: text => if letterMatches letter c then matchLiteral letters text else none

/-- `<style\b[^>]*>`: no word character may follow the name, and the tag ends at its first `>`. -/
def matchOpening (isWord : Char → Bool) (text : List Char) : Option (List Char) :=
  match matchLiteral "<style".toList text with
  | none => none
  | some rest =>
    if rest.head?.any isWord then none
    else (rest.dropWhile (· ≠ '>')).tail?

/-- `(.*?)</style>`: the captured text, and what follows the match. -/
def matchBody (text : List Char) : Option (List Char × List Char) :=
  match matchLiteral "</style>".toList text, text with
  | some rest, _ => some ([], rest)
  | none, [] => none
  | none, c :: text => (matchBody text).map fun (css, rest) => (c :: css, rest)

/-- `STYLE_REGEX.captures_iter(raw)`: `skip` characters belong to the match before. -/
def captures (isWord : Char → Bool) : (skip : Nat) → List Char → List (List Char)
  | _, [] => []
  | skip + 1, _ :: text => captures isWord skip text
  | 0, c :: text =>
    match (matchOpening isWord (c :: text)).bind matchBody with
    | some (css, rest) => css :: captures isWord (text.length - rest.length) text
    | none => captures isWord 0 text

/-- The contents of the style blocks of an email.  `isWord` is the class `\w` of the regex
library. -/
def styleBlocks (isWord : Char → Bool) (raw : String) : List (List Char) :=
  captures isWord 0 raw.toList

end StyleRegex

def scriptScheme : List Char := "javascript:".toList

def importRule : List Char := "@import".toList

def importBlocked : List Char := "/* @import blocked */".toList

def cleanCss (css : List Char) : List Char :=
  replace importRule importBlocked (replace scriptScheme [] css)

def extractedStyles (isWord : Char → Bool) (raw : String) : List Char :=
  (styleBlocks isWord raw).flatMap fun css => cleanCss css ++ ['\n']

def documentHead : String := String.intercalate "\n" [
  "<!DOCTYPE html>",
  "<html>",
  "<head>",
  "    <meta charset=\"utf-8\">",
  "    <meta name=\"viewport\" content=\"width=device-width, initial-scale=1.0\">",
  "    <base target=\"_top\">",
  "    <!-- Preserved Email Styles -->",
  "    <style>",
  "        "]

def documentResets : String := String.intercalate "\n" [
  "",
  "    </style>",
  "    <!-- Base Client Resets -->",
  "    <style>",
  "        html, body \x7b",
  "            margin: 0;",
  "            padding: 18px 22px;",
  "            background-color: #ffffff;",
  "            color: #1a1a1a;",
  "            font-family: -apple-system, BlinkMacSystemFont, \"Segoe UI\", Roboto, Helvetica, Arial, sans-serif;",
  "            font-size: 14px;",
  "            line-height: 1.55;",
  "            -webkit-font-smoothing: antialiased;",
  "            overflow-wrap: break-word;",
  "            word-wrap: break-word;",
  "        \x7d",
  "        img \x7b",
  "            max-width: 100%;",
  "            height: auto;",
  "        \x7d",
  "        table \x7b",
  "            border-collapse: collapse;",
  "        \x7d",
  "        a \x7b",
  "            color: #2563eb;",
  "        \x7d",
  "    </style>",
  "</head>",
  "<body>",
  "    "]

/-- `clean` is the configured Ammonia builder. -/
def sanitizeHtml (isWord : Char → Bool) (clean : String → String) (raw : String) : String :=
  documentHead ++ String.ofList (extractedStyles isWord raw) ++ documentResets ++ clean raw ++
    "\n</body>\n</html>"

end Fumiko.App
