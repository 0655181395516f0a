import Fumiko.App.FindingsBoard
import Fumiko.Foundation.Text

namespace Fumiko.App

open Fumiko.Common Fumiko.Foundation Fumiko.Storage

def toAsciiLowercase (text : String) : String := String.ofList (text.toList.map Char.toLower)

section Searches

variable (lowercase : String → String)

def searchText (searchQuery : String) : String := lowercase (String.ofList (trim searchQuery.toList))

def emailList (searchQuery : String) (rows : List EmailRow) : List EmailRow :=
  let query := searchText lowercase searchQuery
  if query.isEmpty then rows
  else rows.filter fun e =>
    contains (lowercase (e.subject.getD "")) query || contains (lowercase (e.sender.getD "")) query ||
      contains (lowercase (e.snippet.getD "")) query

/-- The board lowers the letters of its rows by another function than those of the query. -/
def Board.searches (searchQuery : String) (f : MatchedEmailWithReason) : Bool :=
  let query := searchText lowercase searchQuery
  query.isEmpty || contains (toAsciiLowercase (f.subject.getD "")) query ||
    contains (toAsciiLowercase (f.sender.getD "")) query

end Searches

section Laws

variable {lowercase : String → String} {subject : String} {b : Board} {f : MatchedEmailWithReason}

theorem emailList_blank (hblank : lowercase "" = "") (rows : List EmailRow) :
    emailList lowercase "" rows = rows := by
  have hquery : searchText lowercase "" = "" := hblank
  rw [emailList, hquery]
  rfl

theorem contains_self (text : String) : contains text text := decide_eq_true List.infix_rfl

theorem contains_iff_eq {text pattern : String} (h : text.length ≤ pattern.length) :
    contains text pattern ↔ pattern = text := by
  constructor
  · intro hfound
    rw [contains, decide_eq_true_eq] at hfound
    exact String.toList_inj.mp (hfound.eq_of_length_le (by simpa only [String.length_toList] using h))
  · rintro rfl
    exact contains_self pattern

theorem length_toAsciiLowercase (text : String) : (toAsciiLowercase text).length = text.length := by
  simp [toAsciiLowercase, ← String.length_toList]

theorem searches_iff (query : String) (f : MatchedEmailWithReason) : Board.searches lowercase query f ↔
    contains (toAsciiLowercase (f.subject.getD "")) (searchText lowercase query) ∨
      contains (toAsciiLowercase (f.sender.getD "")) (searchText lowercase query) := by
  have hempty (text : String) (h : (searchText lowercase query).isEmpty) :
      contains text (searchText lowercase query) := by
    rw [contains, decide_eq_true_eq, String.isEmpty_iff.mp h]
    exact List.nil_infix
  simp only [Board.searches, Bool.or_eq_true]
  constructor
  · rintro ((h | h) | h)
    · exact Or.inl (hempty _ h)
    · exact Or.inl h
    · exact Or.inr h
  · rintro (h | h)
    · exact Or.inl (Or.inr h)
    · exact Or.inr h

/-- The inbox finds a message by its own subject.  The board does so just when the subject has no capitals
beyond ASCII, or when the sender holds it too. -/
theorem search_own_subject (hlong : ∀ text, text.length ≤ (lowercase text).length) (hf : f ∈ b.rows)
    (hlabel : b.selectedLabel.all (f.criterionLabel = ·)) (hsubject : f.subject = some subject)
    (htrim : trim subject.toList = subject.toList) :
    (∀ rows : List EmailRow, ∀ e ∈ rows, e.subject = some subject → e ∈ emailList lowercase subject rows) ∧
      (f ∈ b.findingList (Board.searches lowercase subject) ↔
        lowercase subject = toAsciiLowercase subject ∨
          contains (toAsciiLowercase (f.sender.getD "")) (lowercase subject)) := by
  have hquery : searchText lowercase subject = lowercase subject := by
    rw [searchText, htrim, String.ofList_toList]
  constructor
  · intro rows e he hsame
    rw [emailList, hquery]
    split
    · exact he
    · rw [List.mem_filter, hsame, Option.getD_some, contains_self]
      exact ⟨he, rfl⟩
  · have hshort : (toAsciiLowercase subject).length ≤ (lowercase subject).length :=
      (length_toAsciiLowercase subject).le.trans (hlong subject)
    rw [Board.findingList, List.mem_filter, hlabel, Bool.true_and, searches_iff, hquery, hsubject,
      Option.getD_some, contains_iff_eq hshort]
    exact and_iff_right hf

def frenchLowercase (text : String) : String :=
  String.ofList (text.toList.map fun c => if c = 'É' then 'é' else c.toLower)

def summerMatch : MatchedEmailWithReason where
  emailId := .ending '2'
  accountId := .ending '1'
  criterionId := .ending '3'
  subject := some "ÉTÉ"
  sender := none
  receivedAt := 5
  snippet := none
  isRead := false
  appHasViewed := false
  criterionLabel := "Travel"
  confidence := some (9 / 10)

theorem search_own_subject_summer :
    summerMatch ∉ Board.findingList (Board.searches frenchLowercase "ÉTÉ")
      { rows := [summerMatch], selectedAccount := none, selectedLabel := none } := by
  have hlong (text : String) : text.length ≤ (frenchLowercase text).length := by
    simp [frenchLowercase, ← String.length_toList]
  have hsubject : summerMatch.subject = some "ÉTÉ" := rfl
  rw [(search_own_subject hlong List.mem_cons_self rfl hsubject rfl).2]
  decide

end Laws

end Fumiko.App
