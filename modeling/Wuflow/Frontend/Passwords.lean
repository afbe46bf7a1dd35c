/-
**The password policy in the browser** (`system-settings.js`), and that it is the backend's.

Passwords and emails are the code units of JavaScript's strings. `toLowerCase` is a parameter, as `ToLower`
and `EqualFold` are in the backend (`Host`).

* `isBlacklistedPassword_encode` — both blacklists agree on passwords of at least twelve characters.
* `password_policies_agree` — so do both policies.
-/

import Wuflow.Frontend.EscapeHtml
import Wuflow.Model.Checks
import Wuflow.Model.Passwords

namespace Wuflow.Frontend

open Substring (replaceAll)
open Utf16 (codePoints encode unit utf8Length)

/-! ### The policy -/

/-- `PASSWORD_BLACKLIST`. -/
def passwordBlacklist : List String :=
  ["password", "qwerty", "admin", "welcome", "login",
   "manager", "master", "dragon", "baseball", "football",
   "shadow", "sunshine", "freedom", "charlie", "iloveyou",
   "princess", "monkey", "donald", "michael",
   "123456", "111111", "000000", "abcdef",
   "passwort", "geheim", "hallo", "willkommen",
   "sommer", "winter", "herbst", "fruehling",
   "schatz", "liebe", "sonne", "mond", "sterne",
   "qwertz", "asdfgh", "yxcvbn",
   "fussball", "musik", "schule", "arbeit"]

/-- `LEET_REPLACEMENTS`, in the order of `Object.entries`. -/
def leetReplacements : List (Char × Char) :=
  [('0', 'o'), ('1', 'i'), ('3', 'e'), ('4', 'a'), ('5', 's'), ('@', 'a'), ('$', 's'), ('!', 'i')]

/-- `countCodepoints`. -/
def countCodepoints (text : JsString) : Nat := (codePoints text).length

/-- `countUtf8Bytes`. -/
def countUtf8Bytes (text : JsString) : Nat := utf8Length text

section Policy

variable (toLowerCase : JsString → JsString)

def isBlacklistedPassword (pw : JsString) : Bool :=
  let normalized := toLowerCase pw
  if passwordBlacklist.any fun word => js word == normalized then true
  else
    let normalized := leetReplacements.foldl
      (fun text pair => replaceAll [unit pair.1] [unit pair.2] text) normalized
    passwordBlacklist.any fun blocked =>
      if 4 ≤ (js blocked).length then Substring.includes normalized (js blocked) else normalized == js blocked

/-- `validatePasswordPolicy`: the message of the first rule that is broken. -/
def validatePasswordPolicy (password email : JsString) : Option String :=
  if countCodepoints password < 12 then some "Password must be at least 12 characters"
  else if 72 < countUtf8Bytes password then
    some ("Password must not exceed 72 bytes (letters, digits and common symbols count 1, " ++
      "umlauts and accented letters 2, emoji 4)")
  else if !email.isEmpty && toLowerCase password == toLowerCase email then
    some "Password must not be your email address"
  else if isBlacklistedPassword toLowerCase password then some "Password is too common"
  else none

end Policy

/-! ### Pass after pass, and all at once -/

/-- One pass over a unit or a character. -/
def replaceOne {α : Type} [DecidableEq α] (pairs : List (α × α)) (a : α) : α :=
  pairs.foldl (fun a pair => if a = pair.1 then pair.2 else a) a

theorem foldl_replaceAll (pairs : List (Char × Char)) (text : JsString) :
    pairs.foldl (fun text pair => replaceAll [unit pair.1] [unit pair.2] text) text =
      text.map (replaceOne (pairs.map fun pair => (unit pair.1, unit pair.2))) := by
  induction pairs generalizing text with
  | nil => exact (List.map_id' text).symm
  | cons pair pairs ih =>
      rw [List.foldl_cons, ih, Substring.replaceAll_singleton]
      have single : (text.flatMap fun u => if u = unit pair.1 then [unit pair.2] else [u]) =
          text.map fun u => if u = unit pair.1 then unit pair.2 else u := by
        rw [List.map_eq_flatMap]
        refine List.flatMap_congr fun u _ => ?_
        by_cases here : u = unit pair.1
        · rw [if_pos here, if_pos here]
        · rw [if_neg here, if_neg here]
      rw [single, List.map_map]
      rfl

/-- The replacements of ASCII characters are those of their units. -/
theorem replaceOne_unit {pairs : List (Char × Char)}
    (ascii : ∀ pair ∈ pairs, pair.1.toNat < 0x80 ∧ pair.2.toNat < 0x80) {c : Char}
    (small : c.toNat < 0x10000) :
    replaceOne (pairs.map fun pair => (unit pair.1, unit pair.2)) (unit c) = unit (replaceOne pairs c) ∧
      (replaceOne pairs c).toNat < 0x10000 := by
  induction pairs generalizing c with
  | nil => exact ⟨rfl, small⟩
  | cons pair pairs ih =>
      have here := ascii pair List.mem_cons_self
      have rest := @ih fun other member => ascii other (List.mem_cons_of_mem _ member)
      unfold replaceOne at rest ⊢
      rw [List.map_cons, List.foldl_cons, List.foldl_cons]
      by_cases same : c = pair.1
      · rw [if_pos same, if_pos (congrArg unit same)]
        exact rest (by omega)
      · rw [if_neg same, if_neg fun units => same (Utf16.unit_inj small (by omega) units)]
        exact rest small

/-- Other units and characters are kept. -/
theorem replaceOne_of_other {α : Type} [DecidableEq α] {pairs : List (α × α)} {a : α}
    (other : ∀ pair ∈ pairs, a ≠ pair.1) : replaceOne pairs a = a := by
  induction pairs with
  | nil => rfl
  | cons pair pairs ih =>
      have rest := ih fun other_ member => other other_ (List.mem_cons_of_mem _ member)
      unfold replaceOne at rest ⊢
      rw [List.foldl_cons, if_neg (other pair List.mem_cons_self)]
      exact rest

/-- **Replacing units is replacing characters.** -/
theorem map_encode {pairs : List (Char × Char)}
    (ascii : ∀ pair ∈ pairs, pair.1.toNat < 0x80 ∧ pair.2.toNat < 0x80) (text : List Char) :
    (encode text).map (replaceOne (pairs.map fun pair => (unit pair.1, unit pair.2))) =
      encode (text.map (replaceOne pairs)) := by
  induction text with
  | nil => rfl
  | cons c text ih =>
      by_cases small : c.toNat < 0x10000
      · obtain ⟨here, fits⟩ := replaceOne_unit ascii small
        rw [Utf16.encode_cons_small small, List.map_cons, List.map_cons, Utf16.encode_cons_small fits, here,
          ih]
      · have kept : replaceOne pairs c = c := replaceOne_of_other fun pair member same => by
          have := ascii pair member
          rw [← same] at this
          omega
        obtain ⟨u, v, units, apart⟩ := Utf16.encode_cons_large small
        have unitKept : ∀ w, (∀ d : Char, d.toNat < 0x80 → unit d ≠ w) →
            replaceOne (pairs.map fun pair => (unit pair.1, unit pair.2)) w = w := fun w apart =>
          replaceOne_of_other fun entry member same => by
            obtain ⟨pair, listed, rfl⟩ := List.mem_map.mp member
            exact apart pair.1 (ascii pair listed).1 same.symm
        rw [List.map_cons, kept, units, units, List.map_cons, List.map_cons, ih,
          unitKept u fun d ascii => (apart d ascii).1, unitKept v fun d ascii => (apart d ascii).2]

/-- The passes undo leetspeak as the backend does at once. -/
theorem replaceOne_leetReplacements (c : Char) : replaceOne leetReplacements c = unleet c := by
  by_cases listed : ∃ pair ∈ leetReplacements, c = pair.1
  · obtain ⟨pair, member, rfl⟩ := listed
    have all : ∀ pair ∈ leetReplacements, replaceOne leetReplacements pair.1 = unleet pair.1 := by decide
    exact all pair member
  · have other : ∀ pair ∈ leetReplacements, c ≠ pair.1 := fun pair member same => listed ⟨pair, member, same⟩
    rw [replaceOne_of_other other]
    refine ((mem_of_unleet c).resolve_right fun replaced => ?_).symm
    exact other (c, unleet c) replaced rfl

/-! ### What the policies check -/

theorem validatePasswordPolicy_none {toLowerCase : JsString → JsString} {password email : JsString} :
    validatePasswordPolicy toLowerCase password email = none ↔
      12 ≤ countCodepoints password ∧ countUtf8Bytes password ≤ 72 ∧
        ¬ (email ≠ [] ∧ toLowerCase password = toLowerCase email) ∧
        ¬ isBlacklistedPassword toLowerCase password = true := by
  unfold validatePasswordPolicy
  by_cases long : countCodepoints password < 12
  · rw [if_pos long]
    exact ⟨nofun, fun valid => absurd valid.1 (by omega)⟩
  rw [if_neg long]
  by_cases short : 72 < countUtf8Bytes password
  · rw [if_pos short]
    exact ⟨nofun, fun valid => absurd valid.2.1 (by omega)⟩
  rw [if_neg short]
  have compares : (!email.isEmpty && toLowerCase password == toLowerCase email) = true ↔
      email ≠ [] ∧ toLowerCase password = toLowerCase email := by
    rw [Bool.and_eq_true, Bool.not_eq_true', List.isEmpty_eq_false_iff, beq_iff_eq]
  by_cases same : email ≠ [] ∧ toLowerCase password = toLowerCase email
  · rw [if_pos (compares.mpr same)]
    exact ⟨nofun, fun valid => absurd same valid.2.2.1⟩
  rw [if_neg (mt compares.mp same)]
  by_cases common : isBlacklistedPassword toLowerCase password = true
  · rw [if_pos common]
    exact ⟨nofun, fun valid => absurd common valid.2.2.2⟩
  · rw [if_neg common]
    exact ⟨fun _ => ⟨by omega, by omega, same, common⟩, fun _ => rfl⟩

theorem validatePassword_ok {host : Host} {password email : String} :
    validatePassword host password email = .ok () ↔
      12 ≤ password.length ∧ password.utf8ByteSize ≤ 72 ∧ ¬ host.equalFold password email = true ∧
        ¬ Wuflow.isBlacklistedPassword host password = true := by
  have last : ∀ (holds : Bool) (error : String), check holds error = .ok () ↔ holds = true := by
    intro holds error
    cases holds with
    | true => exact ⟨fun _ => rfl, fun _ => rfl⟩
    | false => exact ⟨nofun, nofun⟩
  unfold validatePassword
  rw [check_bind_ok, check_bind_ok, check_bind_ok, last, decide_eq_true_eq, decide_eq_true_eq,
    Bool.not_eq_true', Bool.not_eq_true', Bool.not_eq_true, Bool.not_eq_true]

theorem countCodepoints_js (s : String) : countCodepoints (js s) = s.length := by
  unfold countCodepoints js
  rw [Utf16.codePoints_encode, List.length_map, String.length_toList]

theorem countUtf8Bytes_js (s : String) : countUtf8Bytes (js s) = s.utf8ByteSize := Utf16.utf8Length_encode s

/-! ### The same policy -/

section Agreement

variable {host : Host} {toLowerCase : JsString → JsString} {lower : Char → Char}

/-- A word is found in the units iff it is in the text. -/
theorem includes_js_iff {word : String} (listed : word ∈ passwordBlacklist) (text : List Char) :
    Substring.includes (encode text) (js word) = containsText text word.toList := by
  have all : ∀ word ∈ passwordBlacklist,
      word.toList ≠ [] ∧ word.toList.all (fun c => c.toNat < 0x80) = true := by decide
  have ascii : ∀ c ∈ word.toList, c.toNat < 0x80 := fun c member =>
    of_decide_eq_true (List.all_eq_true.mp (all word listed).2 c member)
  rw [Bool.eq_iff_iff, containsText_iff, Substring.includes_iff]
  exact Utf16.encode_infix_iff (all word listed).1 ascii

/-- **The blacklists agree** on passwords of at least twelve characters. -/
theorem isBlacklistedPassword_encode (goLower : ∀ s, host.toLower s = String.ofList (s.toList.map lower))
    (jsLower : ∀ text, toLowerCase (encode text) = encode (text.map lower)) {password : String}
    (long : 12 ≤ password.length) :
    isBlacklistedPassword toLowerCase (js password) = Wuflow.isBlacklistedPassword host password := by
  have exact_ : passwordBlacklist.any (fun word => js word == toLowerCase (js password)) = false := by
    rw [List.any_eq_false]
    intro word listed same
    have all : ∀ word ∈ passwordBlacklist, word.toList.length < 12 := by decide
    have short := all word listed
    have texts : word.toList = password.toList.map lower :=
      Utf16.encode_injective ((beq_iff_eq.mp same).trans (jsLower password.toList))
    rw [texts, List.length_map, String.length_toList] at short
    omega
  have ascii : ∀ pair ∈ leetReplacements, pair.1.toNat < 0x80 ∧ pair.2.toNat < 0x80 := by decide
  unfold isBlacklistedPassword Wuflow.isBlacklistedPassword
  rw [if_neg (exact_ ▸ Bool.false_ne_true), foldl_replaceAll, goLower, String.toList_ofList,
    show toLowerCase (js password) = _ from jsLower password.toList, map_encode ascii,
    show replaceOne leetReplacements = unleet from funext replaceOne_leetReplacements]
  rw [Bool.eq_iff_iff, List.any_eq_true, List.any_eq_true]
  refine exists_congr fun word => and_congr_right fun listed => ?_
  have all : ∀ word ∈ passwordBlacklist, 4 ≤ (js word).length := by decide
  rw [if_pos (all word listed), if_pos (long_of_listed listed), includes_js_iff listed]

/-- Two passwords that JavaScript compares are those that `EqualFold` compares. -/
theorem lower_eq_iff (goLower : ∀ s, host.toLower s = String.ofList (s.toList.map lower))
    (jsLower : ∀ text, toLowerCase (encode text) = encode (text.map lower))
    (equalFold : ∀ s t, host.equalFold s t = (host.toLower s == host.toLower t)) (s t : String) :
    toLowerCase (js s) = toLowerCase (js t) ↔ host.equalFold s t = true := by
  rw [equalFold, beq_iff_eq, goLower, goLower, String.ofList_inj,
    show toLowerCase (js s) = _ from jsLower s.toList, show toLowerCase (js t) = _ from jsLower t.toList]
  exact ⟨Utf16.encode_injective, congrArg encode⟩

/-- **The policies agree** where the lower cases do. -/
theorem password_policies_agree (goLower : ∀ s, host.toLower s = String.ofList (s.toList.map lower))
    (jsLower : ∀ text, toLowerCase (encode text) = encode (text.map lower))
    (equalFold : ∀ s t, host.equalFold s t = (host.toLower s == host.toLower t)) (password email : String) :
    validatePasswordPolicy toLowerCase (js password) (js email) = none ↔
      validatePassword host password email = .ok () := by
  rw [validatePassword_ok, validatePasswordPolicy_none, countCodepoints_js, countUtf8Bytes_js]
  refine and_congr_right fun long => and_congr_right fun _ => ?_
  rw [isBlacklistedPassword_encode goLower jsLower long, lower_eq_iff goLower jsLower equalFold]
  refine and_congr_left fun _ => ⟨fun apart same => ?_, fun apart same => absurd same.2 apart⟩
  -- without an email the frontend does not compare; a long password is not empty
  refine apart ⟨fun empty => ?_, same⟩
  have texts : email.toList = [] := Utf16.encode_injective empty
  rw [equalFold, beq_iff_eq, goLower, goLower, String.ofList_inj, texts, List.map_nil, List.map_eq_nil_iff,
    ← List.length_eq_zero_iff, String.length_toList] at same
  omega

/-- The letters of ASCII and their lower case. -/
def asciiLetters : List (Char × Char) :=
  (List.range 26).map fun n => (Char.ofNat (65 + n), Char.ofNat (97 + n))

/-- With the lower case of ASCII: an email is no password, however its letters are written. -/
theorem email_is_no_password :
    validatePasswordPolicy (List.map (replaceOne (asciiLetters.map fun pair => (unit pair.1, unit pair.2))))
        (js "Someone@Example.com") (js "someone@example.com") = none ↔
      validatePassword
        { asciiHost with
          toLower := fun s => String.ofList (s.toList.map (replaceOne asciiLetters))
          equalFold := fun s t =>
            String.ofList (s.toList.map (replaceOne asciiLetters)) ==
              String.ofList (t.toList.map (replaceOne asciiLetters)) }
        "Someone@Example.com" "someone@example.com" = .ok () :=
  password_policies_agree (fun _ => rfl) (map_encode (by decide)) (fun _ _ => rfl) _ _

end Agreement

end Wuflow.Frontend
