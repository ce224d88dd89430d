import Piteka.GitHub.WebhookSignature
import Piteka.Text.Ascii
import Piteka.Text.Base64
import Piteka.Text.Separated

/-!
# App tokens

The JSON web token with which the adapter authenticates as a GitHub App: a header, the
claims and the signature of both, each in base64. RSA and the reading of keys come from
crates outside the repository and are the fields of `Rsa`.
-/
namespace Piteka.GitHub

set_option autoImplicit false

open Piteka.Storage Piteka.Text

structure Rsa where
  Key : Type
  fromPkcs8Pem : String → Except String Key
  fromPkcs1Pem : String → Except String Key
  /-- PKCS#1 v1.5 with SHA-256. -/
  sign : Key → Array UInt8 → Array UInt8

structure JwtToken where
  token : String
  expiresAt : UInt64

def base64Url (bytes : List UInt8) : String := String.ofList (Base64.encode bytes)

def jwtHeader : String := "\x7b\"alg\":\"RS256\",\"typ\":\"JWT\"\x7d"

/-- The sum wraps where overflow is not checked. -/
def jwtClaims (issuedAt appId : UInt64) : String :=
  "\x7b\"iat\":" ++ toString issuedAt.toNat ++ ",\"exp\":" ++ toString (issuedAt + 600).toNat ++
    ",\"iss\":\"" ++ toString appId.toNat ++ "\"\x7d"

def signingInput (issuedAt appId : UInt64) : String :=
  base64Url (Ascii.bytes jwtHeader) ++ "." ++ base64Url (Ascii.bytes (jwtClaims issuedAt appId))

/-- PKCS#8, or else PKCS#1; the error is that of the second. -/
def readPrivateKey (rsa : Rsa) (privateKey : ByteArray) : Except GitHubAppError rsa.Key :=
  match String.fromUTF8? privateKey with
  | none => .error (.secretResolution .emptySecret)
  | some pem =>
    match rsa.fromPkcs8Pem pem with
    | .ok key => .ok key
    | .error _ =>
      (rsa.fromPkcs1Pem pem).mapError fun error =>
        .secretResolution (.storeUnavailable ("invalid GitHub App private key: " ++ error))

def generateJwt (rsa : Rsa) (appId : UInt64) (privateKey : ByteArray) (issuedAt : UInt64) :
    Except GitHubAppError JwtToken := do
  let key ← readPrivateKey rsa privateKey
  let signature := rsa.sign key (asBytes (signingInput issuedAt appId))
  return {
    token := signingInput issuedAt appId ++ "." ++ base64Url signature.toList
    expiresAt := issuedAt + 600 }

/-! ## Reading a token -/

/-- The parts of a text between its dots. -/
def dotted : List Char → List (List Char)
  | [] => [[]]
  | c :: cs =>
    if c = '.' then [] :: dotted cs
    else
      match dotted cs with
      | [] => [[c]]
      | part :: parts => (c :: part) :: parts

/-- The header, the claims and the signature that a token stands for. -/
def readJwt (token : String) : Option (List UInt8 × List UInt8 × List UInt8) :=
  match dotted token.toList with
  | [header, claims, signature] => do
    return (← Base64.decode header, ← Base64.decode claims, ← Base64.decode signature)
  | _ => none

theorem dotted_last {part : List Char} (h : '.' ∉ part) : dotted part = [part] := by
  induction part with
  | nil => rfl
  | cons c part ih =>
    have hc : c ≠ '.' := fun hc => h (hc ▸ List.mem_cons_self)
    rw [dotted, if_neg hc, ih fun hmem => h (List.mem_cons_of_mem c hmem)]

theorem dotted_append {part rest : List Char} (h : '.' ∉ part) :
    dotted (part ++ '.' :: rest) = part :: dotted rest := by
  induction part with
  | nil => rw [List.nil_append, dotted, if_pos rfl]
  | cons c part ih =>
    have hc : c ≠ '.' := fun hc => h (hc ▸ List.mem_cons_self)
    rw [List.cons_append, dotted, if_neg hc, ih fun hmem => h (List.mem_cons_of_mem c hmem)]

theorem dot_not_mem_base64Url (bytes : List UInt8) : '.' ∉ (base64Url bytes).toList := by
  rw [base64Url, String.toList_ofList]
  exact Base64.not_mem_encode (by decide) bytes

/-- Three parts in base64 are read back. -/
theorem readJwt_parts (header claims signature : List UInt8) :
    readJwt (base64Url header ++ "." ++ base64Url claims ++ "." ++ base64Url signature) =
      some (header, claims, signature) := by
  have hdots : dotted (base64Url header ++ "." ++ base64Url claims ++ "." ++ base64Url signature).toList =
      [(base64Url header).toList, (base64Url claims).toList, (base64Url signature).toList] := by
    simp only [String.toList_append, List.append_assoc]
    rw [show ".".toList = ['.'] from rfl, List.singleton_append, List.singleton_append,
      dotted_append (dot_not_mem_base64Url header), dotted_append (dot_not_mem_base64Url claims),
      dotted_last (dot_not_mem_base64Url signature)]
  rw [readJwt, hdots]
  simp only [base64Url, String.toList_ofList, Base64.decode_encode]
  rfl

/-- A token is read as the header, its claims, and the signature of exactly the text before it. -/
theorem generateJwt_read {rsa : Rsa} {appId issuedAt : UInt64} {privateKey : ByteArray} {jwt : JwtToken}
    (h : generateJwt rsa appId privateKey issuedAt = .ok jwt) :
    ∃ key, readPrivateKey rsa privateKey = .ok key ∧ jwt.expiresAt = issuedAt + 600 ∧
      readJwt jwt.token = some (Ascii.bytes jwtHeader, Ascii.bytes (jwtClaims issuedAt appId),
        (rsa.sign key (asBytes (signingInput issuedAt appId))).toList) := by
  rw [generateJwt] at h
  cases hkey : readPrivateKey rsa privateKey with
  | error e =>
    rw [hkey] at h
    cases h
  | ok key =>
    rw [hkey] at h
    obtain rfl := Except.ok.inj h
    exact ⟨key, rfl, rfl, readJwt_parts _ _ _⟩

/-! ## Claims -/

theorem toDigits_value (n : Nat) : (Nat.toDigits 10 n).foldl (fun v c => 10 * v + (c.toNat - 48)) 0 = n := by
  induction n using Nat.strong_induction_on with
  | _ n ih =>
    by_cases hn : n < 10
    · rw [Nat.toDigits_of_lt_base hn, List.foldl_cons, List.foldl_nil, Nat.toNat_digitChar_sub_48_of_lt_ten hn,
        Nat.mul_zero, Nat.zero_add]
    · have hdigit : n % 10 < 10 := Nat.mod_lt n (by decide)
      rw [Nat.toDigits_of_base_le (by decide) (Nat.le_of_not_lt hn), List.foldl_append, ih (n / 10) (by omega),
        List.foldl_cons, List.foldl_nil, Nat.toNat_digitChar_sub_48_of_lt_ten hdigit]
      omega

theorem toDigits_injective {m n : Nat} (h : Nat.toDigits 10 m = Nat.toDigits 10 n) : m = n := by
  rw [← toDigits_value m, h, toDigits_value]

theorem not_mem_toDigits {c : Char} (hc : c.isDigit = false) (n : Nat) : c ∉ Nat.toDigits 10 n := by
  intro hmem
  rw [Nat.isDigit_of_mem_toDigits (by decide) (by decide) hmem] at hc
  cases hc

theorem jwtClaims_toList (issuedAt appId : UInt64) :
    (jwtClaims issuedAt appId).toList = "\x7b\"iat\":".toList ++ (Nat.toDigits 10 issuedAt.toNat ++ ',' ::
      ("\"exp\":".toList ++ (Nat.toDigits 10 (issuedAt + 600).toNat ++ ',' ::
        ("\"iss\":\"".toList ++ (Nat.toDigits 10 appId.toNat ++ '"' :: ['\x7d']))))) := by
  simp [jwtClaims]

/-- The claims tell the time and the app. -/
theorem jwtClaims_injective {issuedAt issuedAt' appId appId' : UInt64}
    (h : jwtClaims issuedAt appId = jwtClaims issuedAt' appId') : issuedAt = issuedAt' ∧ appId = appId' := by
  have hlist := congrArg String.toList h
  rw [jwtClaims_toList, jwtClaims_toList] at hlist
  have hcomma : ∀ n, ',' ∉ Nat.toDigits 10 n := not_mem_toDigits (by decide)
  obtain ⟨hiat, hrest⟩ := Separated.part_append_inj (hcomma _) (hcomma _) (List.append_cancel_left hlist)
  obtain ⟨_, hrest⟩ := Separated.part_append_inj (hcomma _) (hcomma _) (List.append_cancel_left hrest)
  have hquote : ∀ n, '"' ∉ Nat.toDigits 10 n := not_mem_toDigits (by decide)
  obtain ⟨hiss, _⟩ := Separated.part_append_inj (hquote _) (hquote _) (List.append_cancel_left hrest)
  exact ⟨UInt64.toNat_inj.mp (toDigits_injective hiat), UInt64.toNat_inj.mp (toDigits_injective hiss)⟩

end Piteka.GitHub
