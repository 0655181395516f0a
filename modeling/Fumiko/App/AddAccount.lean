import Fumiko.App.AuthWorker
import Fumiko.EmailCore.Linking

namespace Fumiko.App

open Fumiko.Common Fumiko.EmailCore Fumiko.Foundation

structure ImapForm where
  email : String := ""
  password : String := ""
  host : String := "imap.gmail.com"
  port : String := "993"

namespace ImapForm

/-- The presets fill in the server; `custom` leaves it to the user. -/
def selectPreset (preset : String) (f : ImapForm) : ImapForm :=
  match preset with
  | "gmail" => { f with host := "imap.gmail.com", port := "993" }
  | "icloud" => { f with host := "imap.mail.me.com", port := "993" }
  | "yahoo" => { f with host := "imap.mail.yahoo.com", port := "993" }
  | "fastmail" => { f with host := "imap.fastmail.com", port := "993" }
  | _ => f

def trimText (text : String) : String := String.ofList (trim text.toList)

def normalizePassword (password : String) : String :=
  String.ofList ((trimText password).toList.filter (!isWhitespace ·))

/-- `port_str.parse::<u16>()` and the guard on its result. -/
def parsePort (text : String) : Option Nat :=
  (Decimal.parseUnsigned (2 ^ 16) (trimText text)).filter (0 < ·)

def portError : String := "Port must be a valid number between 1 and 65535."

def blankError : String := "Please fill in email, app password, and server host."

def startImap (f : ImapForm) : Except String AuthCommand :=
  let email := trimText f.email
  let password := normalizePassword f.password
  let host := trimText f.host
  match parsePort f.port with
  | none => .error portError
  | some port =>
    if email.isEmpty || password.isEmpty || host.isEmpty then .error blankError
    else .ok (.startImap email password host port)

section Laws

variable {f : ImapForm} {email password host : String} {port : Nat}

theorem trimText_trimText (text : String) : trimText (trimText text) = trimText text := by
  simp [trimText, trim_trim]

theorem mem_normalizePassword {c : Char} (h : c ∈ (normalizePassword password).toList) :
    isWhitespace c = false := by
  simp only [normalizePassword, String.toList_ofList, List.mem_filter] at h
  simpa using h.2

theorem normalizePassword_normalizePassword (password : String) :
    normalizePassword (normalizePassword password) = normalizePassword password := by
  have htrim : trimText (normalizePassword password) = normalizePassword password := by
    rw [trimText, trim_eq_self fun c hc => mem_normalizePassword hc, String.ofList_toList]
  conv_lhs => rw [normalizePassword, htrim]
  rw [List.filter_eq_self.mpr, String.ofList_toList]
  intro c hc
  simp [mem_normalizePassword hc]

theorem isWhitespace_of_isDigit {c : Char} (h : c.isDigit) : isWhitespace c = false := by
  simp only [Char.isDigit, Bool.and_eq_true, decide_eq_true_eq, UInt32.le_iff_toNat_le] at h
  have hlow : 48 ≤ c.toNat := h.1
  have hhigh : c.toNat ≤ 57 := h.2
  rw [isWhitespace, decide_eq_false_iff_not]
  omega

theorem parsePort_repr (hpos : 0 < port) (hlt : port < 2 ^ 16) : parsePort (Nat.repr port) = some port := by
  have hdigits : trimText (Nat.repr port) = Nat.repr port := by
    rw [trimText, trim_eq_self, String.ofList_toList]
    exact fun c hc => isWhitespace_of_isDigit (Decimal.digit_of_mem_repr hc)
  rw [parsePort, hdigits, Decimal.parseUnsigned_repr hlt]
  simp [hpos]

theorem parsePort_bounds {text : String} (h : parsePort text = some port) : 0 < port ∧ port < 2 ^ 16 := by
  rw [parsePort, Option.filter_eq_some_iff] at h
  obtain ⟨hparse, hpos⟩ := h
  refine ⟨of_decide_eq_true hpos, ?_⟩
  simp only [Decimal.parseUnsigned, Option.ite_none_right_eq_some, Option.some.injEq] at hparse
  obtain ⟨-, hlt, rfl⟩ := hparse
  exact hlt

theorem startImap_eq_ok {command : AuthCommand} : f.startImap = .ok command ↔
    ∃ port, parsePort f.port = some port ∧ trimText f.email ≠ "" ∧ normalizePassword f.password ≠ "" ∧
      trimText f.host ≠ "" ∧
      command = .startImap (trimText f.email) (normalizePassword f.password) (trimText f.host) port := by
  rw [startImap]
  cases hport : parsePort f.port with
  | none => simp
  | some port =>
    simp only [Option.some.injEq, exists_eq_left', Bool.or_eq_true, String.isEmpty_iff]
    split
    next hblank =>
      constructor
      · intro h
        cases h
      · rintro ⟨hemail, hpassword, hhost, -⟩
        rcases hblank with (hblank | hblank) | hblank
        · exact absurd hblank hemail
        · exact absurd hblank hpassword
        · exact absurd hblank hhost
    next hfilled =>
      simp only [not_or] at hfilled
      constructor
      · intro h
        cases h
        exact ⟨hfilled.1.1, hfilled.1.2, hfilled.2, rfl⟩
      · rintro ⟨-, -, -, rfl⟩
        rfl

/-- What an accepted form sends has a port that the socket takes, a password that linking leaves
as it is, and fields that the form would send again. -/
theorem startImap_stable {command : AuthCommand} (h : f.startImap = .ok command) :
    ∃ email password host port, command = .startImap email password host port ∧
      0 < port ∧ port < 2 ^ 16 ∧ email ≠ "" ∧ host ≠ "" ∧ password ≠ "" ∧
      cleanPassword password = password ∧
      startImap { email, password, host, port := Nat.repr port } = .ok command := by
  obtain ⟨port, hport, hemail, hpassword, hhost, rfl⟩ := startImap_eq_ok.mp h
  obtain ⟨hpos, hlt⟩ := parsePort_bounds hport
  refine ⟨_, _, _, port, rfl, hpos, hlt, hemail, hhost, hpassword, ?_, startImap_eq_ok.mpr ?_⟩
  · rw [cleanPassword, List.filter_eq_self.mpr, String.ofList_toList]
    intro c hc
    simp [mem_normalizePassword hc]
  · refine ⟨port, parsePort_repr hpos hlt, ?_⟩
    simp only [trimText_trimText, normalizePassword_normalizePassword]
    exact ⟨hemail, hpassword, hhost, trivial⟩

theorem startImap_stable_app_password : ∃ email password host port,
    AuthCommand.startImap "jane@example.com" "abcdefgh" "imap.gmail.com" 993 =
      .startImap email password host port ∧ 0 < port ∧ port < 2 ^ 16 ∧ email ≠ "" ∧ host ≠ "" ∧
      password ≠ "" ∧ cleanPassword password = password ∧
      startImap { email, password, host, port := Nat.repr port } =
        .ok (.startImap "jane@example.com" "abcdefgh" "imap.gmail.com" 993) :=
  startImap_stable (f := { email := " jane@example.com", password := "abcd efgh " }) (by rfl)

end Laws

end ImapForm

end Fumiko.App
