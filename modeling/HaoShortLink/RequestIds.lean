import HaoShortLink.Cpp

/-! Request identifiers (RequestId.cpp). -/
namespace RequestIds

open Cpp

def isValidRequestId (requestId : Bytes) : Bool :=
  !requestId.isEmpty && requestId.length ≤ 64 &&
    requestId.all fun ch => isAlnum ch || ch == 46 || ch == 95 || ch == 45

def hexDigit (n : ℕ) : UInt8 := (ascii "0123456789abcdef").getD (n % 16) 48

/-- %016llx -/
def hex16 (n : ℕ) : Bytes := (List.range 16).map fun i => hexDigit (n / 16 ^ (15 - i))

/-- The identifier for one value of the process-wide sequence. -/
def generateRequestId (processNonce next : ℕ) : Bytes := hex16 processNonce ++ hex16 next

theorem isAlnum_hexDigit (n : ℕ) : isAlnum (hexDigit n) = true := by
  have hall : ∀ i < 16, isAlnum ((ascii "0123456789abcdef").getD i 48) = true := by decide
  exact hall _ (Nat.mod_lt _ (by decide))

theorem isValidRequestId_generate (processNonce next : ℕ) :
    isValidRequestId (generateRequestId processNonce next) = true := by
  simp [isValidRequestId, generateRequestId, hex16, isAlnum_hexDigit]

/-- What onRequest uses: the identifier that was supplied when it is valid, else its own. -/
def chooseRequestId (supplied : Bytes) (processNonce next : ℕ) : Bytes :=
  if isValidRequestId supplied then supplied else generateRequestId processNonce next

theorem isValidRequestId_choose (supplied : Bytes) (processNonce next : ℕ) :
    isValidRequestId (chooseRequestId supplied processNonce next) = true := by
  unfold chooseRequestId
  split
  · assumption
  · exact isValidRequestId_generate processNonce next

theorem not_cr_mem {requestId : Bytes} (h : isValidRequestId requestId = true) :
    (13 : UInt8) ∉ requestId := by
  simp only [isValidRequestId, Bool.and_eq_true, List.all_eq_true] at h
  intro hmem
  exact absurd (h.2 13 hmem) (by decide)

end RequestIds
