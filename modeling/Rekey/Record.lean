import Rekey.Text.Quoted
/-! # Records

A record holds the salted hash of a recovery password under a key, until it expires. The texts of a
record and of its secret show neither hash nor salt. -/
namespace Rekey

structure Secret where
  hash : String
  salt : String
  deriving DecidableEq, Repr

structure Record where
  key : String
  secret : Secret
  expiresAt : Int
  deriving DecidableEq, Repr

/-- The record with its secret struck out. Two records differ in their secrets alone when they are the
same once these are struck out. -/
def Record.masked (r : Record) : Record := { r with secret := ⟨"", ""⟩ }

def Secret.shown (_ : Secret) : String := "SaltedTokenHash(hash=***, salt=***)"

def Record.shown (r : Record) : String :=
  "SourceRecord(key=" ++ Text.quoted r.key ++ ", secret=" ++ r.secret.shown ++ ", expires_at=" ++
    toString r.expiresAt ++ ")"

theorem Record.shown_congr {r s : Record} (key : r.key = s.key)
    (expiresAt : r.expiresAt = s.expiresAt) : r.shown = s.shown := by
  unfold Record.shown Secret.shown
  rw [key, expiresAt]

theorem Record.shown_masked (r : Record) : r.masked.shown = r.shown := shown_congr rfl rfl

end Rekey
