/-
This file is the SHA-256 hash of a list of octets, as a library.

The message is padded to whole blocks of sixteen words, and each block is folded into a
state of eight words over sixty-four rounds. The words of the schedule are made as the
rounds go, from a window of the last sixteen.
-/

import Mathlib.Data.List.TakeDrop

namespace Sha256

abbrev Word := BitVec 32

/-! ### Words and octets -/

/-- The word four octets write, the most significant of them first. -/
def wordOf (octets : List Nat) : Word :=
  octets.foldl (fun word octet => word <<< 8 ||| BitVec.ofNat 32 octet) 0

/-- The octets of a word, the most significant of them first. -/
def octetsOf (word : Word) : List Nat :=
  [(word >>> 24).toNat, (word >>> 16).toNat % 0x100, (word >>> 8).toNat % 0x100, word.toNat % 0x100]

/-- The words some octets write, four octets each. -/
def wordsOf : List Nat → List Word
  | first :: second :: third :: fourth :: rest =>
    wordOf [first, second, third, fourth] :: wordsOf rest
  | _ => []

/-- A message, the bit behind it, and its length in bits at the end of the last block. -/
def padded (message : List Nat) : List Nat :=
  let bits := 8 * message.length
  message ++ 0x80 :: List.replicate ((119 - message.length % 64) % 64) 0 ++
    (octetsOf (BitVec.ofNat 32 (bits / 0x100000000)) ++ octetsOf (BitVec.ofNat 32 bits))

/-! ### Rounds -/

def constants : List Word :=
  [0x428a2f98, 0x71374491, 0xb5c0fbcf, 0xe9b5dba5, 0x3956c25b, 0x59f111f1, 0x923f82a4, 0xab1c5ed5,
    0xd807aa98, 0x12835b01, 0x243185be, 0x550c7dc3, 0x72be5d74, 0x80deb1fe, 0x9bdc06a7, 0xc19bf174,
    0xe49b69c1, 0xefbe4786, 0x0fc19dc6, 0x240ca1cc, 0x2de92c6f, 0x4a7484aa, 0x5cb0a9dc, 0x76f988da,
    0x983e5152, 0xa831c66d, 0xb00327c8, 0xbf597fc7, 0xc6e00bf3, 0xd5a79147, 0x06ca6351, 0x14292967,
    0x27b70a85, 0x2e1b2138, 0x4d2c6dfc, 0x53380d13, 0x650a7354, 0x766a0abb, 0x81c2c92e, 0x92722c85,
    0xa2bfe8a1, 0xa81a664b, 0xc24b8b70, 0xc76c51a3, 0xd192e819, 0xd6990624, 0xf40e3585, 0x106aa070,
    0x19a4c116, 0x1e376c08, 0x2748774c, 0x34b0bcb5, 0x391c0cb3, 0x4ed8aa4a, 0x5b9cca4f, 0x682e6ff3,
    0x748f82ee, 0x78a5636f, 0x84c87814, 0x8cc70208, 0x90befffa, 0xa4506ceb, 0xbef9a3f7, 0xc67178f2]

/-- The eight words a block is folded into. -/
structure State where
  a : Word
  b : Word
  c : Word
  d : Word
  e : Word
  f : Word
  g : Word
  h : Word

def initial : State where
  a := 0x6a09e667
  b := 0xbb67ae85
  c := 0x3c6ef372
  d := 0xa54ff53a
  e := 0x510e527f
  f := 0x9b05688c
  g := 0x1f83d9ab
  h := 0x5be0cd19

/-- One round, given its constant and its word of the schedule. -/
def round (state : State) (constant word : Word) : State :=
  let s1 := state.e.rotateRight 6 ^^^ state.e.rotateRight 11 ^^^ state.e.rotateRight 25
  let choice := (state.e &&& state.f) ^^^ (~~~state.e &&& state.g)
  let temp1 := state.h + s1 + choice + constant + word
  let s0 := state.a.rotateRight 2 ^^^ state.a.rotateRight 13 ^^^ state.a.rotateRight 22
  let majority := (state.a &&& state.b) ^^^ (state.a &&& state.c) ^^^ (state.b &&& state.c)
  ⟨temp1 + (s0 + majority), state.a, state.b, state.c, state.d + temp1, state.e, state.f, state.g⟩

/-- The word of the schedule sixteen places after the first of a window. -/
def nextWord (window : List Word) : Word :=
  let w1 := window.getD 1 0
  let w14 := window.getD 14 0
  let s0 := w1.rotateRight 7 ^^^ w1.rotateRight 18 ^^^ w1 >>> 3
  let s1 := w14.rotateRight 17 ^^^ w14.rotateRight 19 ^^^ w14 >>> 10
  window.headD 0 + s0 + window.getD 9 0 + s1

/-- The rounds of some constants, over the window their first word begins. -/
def rounds : List Word → List Word → State → State
  | [], _, state => state
  | constant :: later, window, state =>
    rounds later (window.tail ++ [nextWord window]) (round state constant (window.headD 0))

/-- One block folded into a state. -/
def compress (state : State) (block : List Word) : State :=
  let after := rounds constants block state
  ⟨state.a + after.a, state.b + after.b, state.c + after.c, state.d + after.d, state.e + after.e,
    state.f + after.f, state.g + after.g, state.h + after.h⟩

/-! ### The digest -/

/-- The blocks of some words folded into a state, `count` of them. -/
def blocks : (count : Nat) → List Word → State → State
  | 0, _, state => state
  | count + 1, words, state => blocks count (words.drop 16) (compress state (words.take 16))

/-- The SHA-256 hash of a message. -/
def sha256 (message : List Nat) : List Nat :=
  let words := wordsOf (padded message)
  let state := blocks (words.length / 16) words initial
  [state.a, state.b, state.c, state.d, state.e, state.f, state.g, state.h].flatMap octetsOf

example : sha256 [] =
    [0xe3, 0xb0, 0xc4, 0x42, 0x98, 0xfc, 0x1c, 0x14, 0x9a, 0xfb, 0xf4, 0xc8, 0x99, 0x6f, 0xb9, 0x24,
      0x27, 0xae, 0x41, 0xe4, 0x64, 0x9b, 0x93, 0x4c, 0xa4, 0x95, 0x99, 0x1b, 0x78, 0x52, 0xb8,
      0x55] := by
  decide +kernel

end Sha256
