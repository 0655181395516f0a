import Fumiko.Foundation.Link
import Fumiko.Storage.RunLaws

namespace Fumiko.App

open Fumiko.Common Fumiko.Foundation Fumiko.Storage

def gmailSession : String := "https://mail.google.com/mail/?authuser="

def outlookLiveMessage : String := "https://outlook.live.com/mail/deeplink/read/"

def outlookOfficeMessage : String := "https://outlook.office.com/mail/deeplink/read/"

def outlookLivePage : String := "https://outlook.live.com/mail/"

def icloudPage : String := "https://www.icloud.com/mail"

def yahooPage : String := "https://mail.yahoo.com"

def endsWith (text suffix : String) : Bool := suffix.toList.isSuffixOf text.toList

def emailLower (account : LinkedAccount) : String :=
  String.ofList (account.emailAddress.toList.map Char.toLower)

/-- `encode` is that of the `urlencoding` crate. -/
def buildWebmailUrl (encode : String → String) (account : LinkedAccount) (email : EmailRow) : Option String :=
  match account.provider with
  | .gmail => some (gmailSession ++ encode account.emailAddress ++ "#all/" ++ email.providerMessageId)
  | .outlook =>
    if endsWith (emailLower account) "@outlook.com" || endsWith (emailLower account) "@hotmail.com" ||
        endsWith (emailLower account) "@live.com" then
      some (outlookLiveMessage ++ encode email.providerMessageId)
    else some (outlookOfficeMessage ++ encode email.providerMessageId)
  | .imap =>
    if endsWith (emailLower account) "@gmail.com" || account.imapHost = some "imap.gmail.com" then
      some (gmailSession ++ encode account.emailAddress)
    else if endsWith (emailLower account) "@outlook.com" || endsWith (emailLower account) "@hotmail.com" ||
        account.imapHost = some "outlook.office365.com" then
      some outlookLivePage
    else if endsWith (emailLower account) "@icloud.com" || account.imapHost = some "imap.mail.me.com" then
      some icloudPage
    else if endsWith (emailLower account) "@yahoo.com" || account.imapHost = some "imap.mail.yahoo.com" then
      some yahooPage
    else none

/-- What the documentation of the crate says: every octet is percent-encoded but letters, digits and
`-._~`, and decoding gives the text back. -/
def EncodesUrl (encode : String → String) : Prop :=
  ∀ text, PercentEncoding.Encoded (encode text).toList text.toList

structure Page where
  scheme : String
  host : String
  segments : List String
  query : List (String × String)
  fragment : Option String
  deriving DecidableEq

def percentDecoded (text : String) : String := String.ofList (PercentEncoding.decode text.toList)

def segments (path : List Char) : List String :=
  (fields '/' path).map fun segment => String.ofList (PercentEncoding.decode segment)

def Page.ofLink (link : Link) : Page where
  scheme := String.ofList link.scheme
  host := String.ofList link.host
  segments := App.segments link.path
  query := FormEncoding.parse (link.query.getD [])
  fragment := link.fragment.map String.ofList

def readPage (url : String) : Option Page := (Link.read url.toList).map Page.ofLink

def gmailMailbox (address : String) : Page where
  scheme := "https"
  host := "mail.google.com"
  segments := ["", "mail", ""]
  query := [("authuser", address)]
  fragment := none

def outlookMessage (host messageId : String) : Page where
  scheme := "https"
  host
  segments := ["", "mail", "deeplink", "read", messageId]
  query := []
  fragment := none

section Laws

variable {encode : String → String} {account : LinkedAccount} {email : EmailRow} {url : String}

theorem readPage_of_write {link : Link} (hurl : url.toList = link.write) (h : link.WellFormed) :
    readPage url = some (Page.ofLink link) := by
  rw [readPage, hurl, Link.read_write h]
  rfl

theorem percentDecoded_all (messageId : String) :
    percentDecoded ("all/" ++ messageId) = "all/" ++ percentDecoded messageId := by
  apply String.toList_injective
  rw [percentDecoded, String.toList_append, PercentEncoding.decode_append (by simp), percentDecoded]
  simp

section Encode

variable (hencode : EncodesUrl encode)
include hencode

theorem encode_plain {text : String} {c : Char} (hc : c ∈ (encode text).toList) :
    c ≠ '/' ∧ c ≠ '?' ∧ c ≠ '#' := by
  have h := (hencode text).plain c hc
  refine ⟨?_, ?_, ?_⟩ <;>
  · rintro rfl
    revert h
    decide

theorem parse_authuser (address : String) :
    FormEncoding.parse ("authuser".toList ++ '=' :: (encode address).toList) = [("authuser", address)] := by
  rw [(hencode address).parse_pair (by simp) (by simp), String.ofList_toList]
  rfl

theorem readPage_gmail (address : String) (fragment : Option String)
    (hurl : url.toList = (gmailSession ++ encode address).toList ++
      Link.written '#' (fragment.map String.toList)) :
    readPage url = some { gmailMailbox address with fragment } := by
  let link : Link := ⟨"https".toList, "mail.google.com".toList, "/mail/".toList,
    some ("authuser".toList ++ '=' :: (encode address).toList), fragment.map String.toList⟩
  have hwrite : url.toList = link.write := by
    rw [hurl]
    simp [link, Link.write, gmailSession, Link.written]
  have hwf : link.WellFormed := by
    constructor
    · simp [link]
    · simp [link]
    · simp [link]
    · exact Or.inr ⟨"mail/".toList, by simp [link]⟩
    · rintro text ⟨⟩ hc
      rcases List.mem_append.mp hc with hc | hc
      · revert hc
        simp
      · rcases List.mem_cons.mp hc with hc | hc
        · cases hc
        · exact (encode_plain hencode hc).2.2 rfl
  have hsegments : segments "/mail/".toList = ["", "mail", ""] := by decide
  have hfragment : (fragment.map String.toList).map String.ofList = fragment := by
    cases fragment <;> simp
  rw [readPage_of_write hwrite hwf]
  simp only [Page.ofLink, link, gmailMailbox, hsegments, Option.getD_some, parse_authuser hencode,
    hfragment, String.ofList_toList]

theorem segments_message (messageId : String) :
    segments ("/mail/deeplink/read".toList ++ '/' :: (encode messageId).toList) =
      ["", "mail", "deeplink", "read", messageId] := by
  have hslash : '/' ∉ (encode messageId).toList := fun hc => (encode_plain hencode hc).1 rfl
  have hfront : segments "/mail/deeplink/read".toList = ["", "mail", "deeplink", "read"] := by decide
  have hback : String.ofList (PercentEncoding.decode (encode messageId).toList) = messageId := by
    rw [(hencode messageId).decode, String.ofList_toList]
  rw [segments, fields_append_cons, List.map_append, ← segments, hfront, fields_of_not_mem hslash,
    List.map_singleton, hback]
  rfl

theorem readPage_outlook {host messageId : String} (hhost : ∀ c ∈ host.toList, c ≠ '/' ∧ c ≠ '?' ∧ c ≠ '#')
    (hurl : url = "https://" ++ host ++ "/mail/deeplink/read/" ++ encode messageId) :
    readPage url = some (outlookMessage host messageId) := by
  let link : Link := ⟨"https".toList, host.toList,
    "/mail/deeplink/read".toList ++ '/' :: (encode messageId).toList, none, none⟩
  have hwrite : url.toList = link.write := by
    rw [hurl]
    simp [link, Link.write, Link.written]
  have hwf : link.WellFormed := by
    constructor
    · simp [link]
    · exact hhost
    · intro c hc
      have hfront : ∀ c ∈ "/mail/deeplink/read".toList, c ≠ '?' ∧ c ≠ '#' := by simp
      rcases List.mem_append.mp hc with hc | hc
      · exact hfront c hc
      · rcases List.mem_cons.mp hc with rfl | hc
        · decide
        · exact (encode_plain hencode hc).2
    · exact Or.inr ⟨"mail/deeplink/read".toList ++ '/' :: (encode messageId).toList, by simp [link]⟩
    · rintro text ⟨⟩
  rw [readPage_of_write hwrite hwf]
  simp only [Page.ofLink, link, outlookMessage, segments_message hencode, Option.getD_none, Option.map_none,
    String.ofList_toList]
  rfl

end Encode

/-- A link read back: whatever the address and the id are made of, it asks for this message, or for the
mailbox, in the session of this account.  The id of Gmail is not encoded, so that a page which decodes
its fragment finds the message only when decoding leaves the id as it is. -/
theorem read_buildWebmailUrl (hencode : EncodesUrl encode)
    (h : buildWebmailUrl encode account email = some url) :
    (account.provider = .gmail →
      readPage url = some { gmailMailbox account.emailAddress with
        fragment := some ("all/" ++ email.providerMessageId) } ∧
      (percentDecoded ("all/" ++ email.providerMessageId) = "all/" ++ email.providerMessageId ↔
        percentDecoded email.providerMessageId = email.providerMessageId)) ∧
    (account.provider = .outlook →
      readPage url = some (outlookMessage
        (if endsWith (emailLower account) "@outlook.com" || endsWith (emailLower account) "@hotmail.com" ||
            endsWith (emailLower account) "@live.com" then "outlook.live.com" else "outlook.office.com")
        email.providerMessageId)) ∧
    (account.provider = .imap →
      ((endsWith (emailLower account) "@gmail.com" ∨ account.imapHost = some "imap.gmail.com") ∧
        readPage url = some (gmailMailbox account.emailAddress)) ∨
      ((endsWith (emailLower account) "@outlook.com" ∨ endsWith (emailLower account) "@hotmail.com" ∨
          account.imapHost = some "outlook.office365.com") ∧
        readPage url = some ⟨"https", "outlook.live.com", ["", "mail", ""], [], none⟩) ∨
      ((endsWith (emailLower account) "@icloud.com" ∨ account.imapHost = some "imap.mail.me.com") ∧
        readPage url = some ⟨"https", "www.icloud.com", ["", "mail"], [], none⟩) ∨
      ((endsWith (emailLower account) "@yahoo.com" ∨ account.imapHost = some "imap.mail.yahoo.com") ∧
        readPage url = some ⟨"https", "mail.yahoo.com", [""], [], none⟩)) := by
  unfold buildWebmailUrl at h
  cases hprovider : account.provider with
  | gmail =>
    rw [hprovider] at h
    cases h
    refine ⟨fun _ => ⟨?_, ?_⟩, ?_, ?_⟩
    · apply readPage_gmail hencode
      simp [Link.written]
    · rw [percentDecoded_all]
      exact ⟨fun hall => String.append_right_inj "all/" |>.mp hall, congrArg ("all/" ++ ·)⟩
    · rintro ⟨⟩
    · rintro ⟨⟩
  | outlook =>
    rw [hprovider] at h
    refine ⟨?_, fun _ => ?_, ?_⟩
    · rintro ⟨⟩
    · dsimp only at h
      split at h
      · next hlive =>
        cases h
        rw [if_pos hlive]
        exact readPage_outlook hencode (by simp) rfl
      · next hlive =>
        cases h
        rw [if_neg hlive]
        exact readPage_outlook hencode (by simp) rfl
    · rintro ⟨⟩
  | imap =>
    rw [hprovider] at h
    refine ⟨?_, ?_, fun _ => ?_⟩
    · rintro ⟨⟩
    · rintro ⟨⟩
    · dsimp only at h
      split at h
      · next hserved =>
        cases h
        refine Or.inl ⟨by simpa using hserved, ?_⟩
        apply readPage_gmail hencode
        simp [Link.written]
      split at h
      · next hserved =>
        cases h
        exact Or.inr (Or.inl ⟨by simpa [or_assoc] using hserved, by decide⟩)
      split at h
      · next hserved =>
        cases h
        exact Or.inr (Or.inr (Or.inl ⟨by simpa using hserved, by decide⟩))
      split at h
      · next hserved =>
        cases h
        exact Or.inr (Or.inr (Or.inr ⟨by simpa using hserved, by decide⟩))
      · cases h

def hashAccount : LinkedAccount where
  id := .ending '1'
  provider := .gmail
  emailAddress := "me#1&x@gmail.com"
  displayName := none
  syncCursor := none
  lastSyncedAt := none
  lastSyncError := none
  createdAt := 0
  imapHost := none
  imapPort := none

def encodeText (text : String) : String := String.ofList (PercentEncoding.encode text.toList)

def slashAccount : LinkedAccount := { hashAccount with provider := .outlook }

theorem read_buildWebmailUrl_example :
    (∃ url, buildWebmailUrl encodeText hashAccount { trashedEmail with providerMessageId := "a%41" } = some url ∧
      readPage url = some { gmailMailbox "me#1&x@gmail.com" with fragment := some "all/a%41" } ∧
      (percentDecoded ("all/" ++ "a%41") = "all/" ++ "a%41" ↔ percentDecoded "a%41" = "a%41")) ∧
    ∃ url, buildWebmailUrl encodeText slashAccount { trashedEmail with providerMessageId := "A/b?c" } = some url ∧
      readPage url = some (outlookMessage "outlook.office.com" "A/b?c") := by
  have hencode : EncodesUrl encodeText := by
    intro text
    rw [encodeText, String.toList_ofList]
    exact PercentEncoding.encoded_encode text.toList
  have hgmail : buildWebmailUrl encodeText hashAccount { trashedEmail with providerMessageId := "a%41" } =
      some (gmailSession ++ encodeText hashAccount.emailAddress ++ "#all/" ++ "a%41") := rfl
  have hoffice : ¬(endsWith (emailLower slashAccount) "@outlook.com" ||
      endsWith (emailLower slashAccount) "@hotmail.com" ||
      endsWith (emailLower slashAccount) "@live.com") = true := by decide
  have houtlook : buildWebmailUrl encodeText slashAccount { trashedEmail with providerMessageId := "A/b?c" } =
      some (outlookOfficeMessage ++ encodeText "A/b?c") := by
    unfold buildWebmailUrl
    exact if_neg hoffice
  have hread := (read_buildWebmailUrl hencode houtlook).2.1 rfl
  rw [if_neg hoffice] at hread
  exact ⟨⟨_, hgmail, (read_buildWebmailUrl hencode hgmail).1 rfl⟩, ⟨_, houtlook, hread⟩⟩

end Laws

end Fumiko.App
