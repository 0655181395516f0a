import Fumiko.Storage.Service

namespace Fumiko.EmailCore

open Fumiko.Common Fumiko.Net

structure EmailProvider where
  getProfile : (accessToken : String) → Program ProviderError Profile
  initialSync : (accessToken : String) → SyncOptions → Program ProviderError SyncPage
  incrementalSync : (accessToken cursor : String) → Program ProviderError SyncPage
  fetchMessageMetadata : (accessToken : String) → (messageIds : List String) →
    Program ProviderError (List (Except ProviderError MessageMetadata))
  fetchFullMessage : (accessToken messageId : String) → Program ProviderError FullMessage

/-- `Vec::dedup`: drops an item equal to the one before it. -/
def dedup : List String → List String
  | a :: b :: l => if a = b then dedup (b :: l) else a :: dedup (b :: l)
  | l => l

@[simp] theorem mem_dedup {a : String} {l : List String} : a ∈ dedup l ↔ a ∈ l := by
  induction l with
  | nil => rfl
  | cons b l ih =>
    cases l with
    | nil => rfl
    | cons c l =>
      simp only [dedup]
      split
      · next h => simp [ih, h]
      · simp [ih]

end Fumiko.EmailCore
