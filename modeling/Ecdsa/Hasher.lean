import Ecdsa.Sha256

/-!
# Hashing in pieces

A hasher takes bytes in pieces of any length and gives the digest of all it was given so far, as
often as asked (`Holds.finish`). It keeps the chaining value of the whole blocks, the bytes of
the last block, and the number of bytes.

Hashers are kept under names. A step creates one, gives it more bytes, or asks it for the digest;
a step that fails changes nothing.
-/

namespace Ecdsa

/-- The state of hashing in pieces. -/
structure Hasher where
  chain : Sha256.Chain
  pending : Bytes
  count : Nat
  deriving DecidableEq, Repr

namespace Hasher

/-- A hasher that was given nothing yet. -/
def new : Hasher :=
  ⟨Sha256.initial, [], 0⟩

/-- A hasher for a hash function of the given name; SHA-256 is the only one there is. -/
def ofName (algorithm : String) : Except Fault Hasher :=
  if algorithm = "sha256" then .ok new else .error (.unknownAlgorithm algorithm)

/-- Gives a hasher more bytes. -/
def update (h : Hasher) (data : Bytes) : Hasher :=
  let r := Sha256.absorb h.chain (h.pending ++ data)
  ⟨r.1, r.2, h.count + data.length⟩

/-- Gives a hasher more bytes if they are bytes: no other value is converted. -/
def updateSource (h : Hasher) : ByteSource → Except Fault Hasher
  | .bytes data => .ok (h.update data)
  | _ => .error .notBytes

/-- The digest of all bytes given so far. -/
def finish (h : Hasher) : Digest :=
  (Sha256.absorb h.chain (h.pending ++ Sha256.padding h.count)).1.toDigest

/-- A hasher that was given exactly these bytes. -/
def Holds (h : Hasher) (data : Bytes) : Prop :=
  Sha256.absorb Sha256.initial data = (h.chain, h.pending) ∧ h.count = data.length

theorem holds_new : new.Holds [] :=
  ⟨Sha256.absorb_of_lt _ (by simp), rfl⟩

theorem Holds.update {h : Hasher} {data : Bytes} (held : h.Holds data) (more : Bytes) :
    (h.update more).Holds (data ++ more) := by
  refine ⟨?_, ?_⟩
  · rw [Sha256.absorb_append, held.1]
    rfl
  · simp [Hasher.update, held.2]

/-- The digest asked of a hasher is the digest of all it was given, however it was cut up. -/
theorem Holds.finish {h : Hasher} {data : Bytes} (held : h.Holds data) :
    h.finish = Sha256.digest data := by
  rw [Sha256.digest, Sha256.absorb_append, held.1, Hasher.finish, held.2]

end Hasher

/-- Hashers kept under names, the latest first. -/
abbrev HasherStore := List (String × Hasher)

/-- One step in the use of named hashers. -/
inductive HasherStep where
  /-- Keeps a fresh hasher for the named hash function. -/
  | create (name algorithm : String)
  /-- Gives the named hasher more bytes. -/
  | update (name : String) (data : ByteSource)
  /-- Asks the named hasher for the digest so far. -/
  | finish (name : String)
  deriving DecidableEq, Repr

namespace HasherStore

/-- The hasher kept under a name. -/
def find (store : HasherStore) (name : String) : Except Fault Hasher :=
  match store.lookup name with
  | some h => .ok h
  | none => .error .unknownName

/-- Keeps a hasher under a name, in place of any other. -/
def keep (store : HasherStore) (name : String) (h : Hasher) : HasherStore :=
  (name, h) :: store

/-- What a step changes and what it answers: a digest if it asks for one. -/
def perform (store : HasherStore) : HasherStep → Except Fault (HasherStore × Option Digest)
  | .create name algorithm => do
    let h ← Hasher.ofName algorithm
    pure (store.keep name h, none)
  | .update name data => do
    let h ← (← store.find name).updateSource data
    pure (store.keep name h, none)
  | .finish name => do
    let h ← store.find name
    pure (store, some h.finish)

/-- One step: its answer, and the hashers after it. A step that fails changes nothing. -/
def step (store : HasherStore) (s : HasherStep) : HasherStore × Except Fault (Option Digest) :=
  match store.perform s with
  | .ok (after, answer) => (after, .ok answer)
  | .error fault => (store, .error fault)

/-- The answers of a run of steps, in order. -/
def run (store : HasherStore) : List HasherStep → List (Except Fault (Option Digest))
  | [] => []
  | s :: rest => (store.step s).2 :: (store.step s).1.run rest

end HasherStore

end Ecdsa
