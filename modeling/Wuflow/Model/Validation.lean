/-
**Input validation** (`validation.go`).

Each `validateX` takes the decoded value and returns it normalised, or the error text of the first
check it fails. Texts are lists of Unicode code points, so `utf8.RuneCountInString` is `length` and
`len` is the UTF-8 size. The functions of the standard library that the policy rests on and that follow
Unicode tables (`strings.ToLower`, `strings.EqualFold`) are parameters (`Host`).
-/

import Wuflow.Model.Types

namespace Wuflow

open Calendar (Instant)

/-- What the backend takes from outside the repository: the Unicode tables of `strings`,
bcrypt's comparison and the keyed HMAC. -/
structure Host where
  toLower : String → String
  equalFold : String → String → Bool
  checkPassword : String → String → Bool
  computeTokenMAC : List UInt8 → String

/-! ### Text -/

/-- `unicode.IsSpace`. -/
def isSpace (c : Char) : Bool :=
  let n := c.toNat
  (9 ≤ n && n ≤ 13) || n == 0x20 || n == 0x85 || n == 0xA0 || n == 0x1680 ||
    (0x2000 ≤ n && n ≤ 0x200A) || n == 0x2028 || n == 0x2029 || n == 0x202F || n == 0x205F ||
    n == 0x3000

def trimSpaceChars (cs : List Char) : List Char := (cs.dropWhile isSpace).rdropWhile isSpace

/-- `strings.TrimSpace`. -/
def trimSpace (s : String) : String := String.ofList (trimSpaceChars s.toList)

/-- `strings.ReplaceAll(s, "\x00", "")`. -/
def removeNul (s : String) : String := String.ofList (s.toList.filter fun c => c.toNat != 0)

/-- Remove the leftmost matches of `<[^>]+>`. Inside a possible tag the characters since its `<` are
pending (newest first); they are dropped when a `>` closes it and written out otherwise. -/
def stripTags : Option (List Char) → List Char → List Char
  | none, [] => []
  | some pending, [] => pending.reverse
  | none, c :: rest => if c = '<' then stripTags (some ['<']) rest else c :: stripTags none rest
  | some pending, c :: rest =>
      if c = '>' then
        -- `<>` has nothing between its brackets, so it is no tag
        if pending = ['<'] then '<' :: '>' :: stripTags none rest else stripTags none rest
      else stripTags (some (c :: pending)) rest

def sanitizeString (s : String) : String :=
  String.ofList (stripTags none (trimSpace (removeNul s)).toList)

/-- The class `\s` of the regular expressions. -/
def isRegexSpace (c : Char) : Bool := c = '\t' || c = '\n' || c.toNat == 12 || c = '\r' || c = ' '

/-- `^[^\s@]+@[^\s@]+$`. -/
def emailMatches (email : String) : Bool :=
  let part := fun cs : List Char => !cs.isEmpty && cs.all fun c => !isRegexSpace c && c != '@'
  let cs := email.toList
  match cs.dropWhile (· != '@') with
  | [] => false
  | _ :: domain => part (cs.takeWhile (· != '@')) && part domain

def isHexDigit (c : Char) : Bool :=
  c.isDigit || ('A' ≤ c && c ≤ 'F') || ('a' ≤ c && c ≤ 'f')

/-- `^#[0-9A-Fa-f]{6}$`. -/
def colorMatches (color : String) : Bool :=
  match color.toList with
  | '#' :: digits => digits.length == 6 && digits.all isHexDigit
  | _ => false

/-- `^[a-zA-Z0-9]+( [a-zA-Z0-9]+)*$`. -/
def statusNameMatches (name : String) : Bool :=
  (name.toList.splitOn ' ').all fun word => !word.isEmpty && word.all Char.isAlphanum

/-- `time.Parse("2006-01-02", s)` succeeds. -/
def isDate (s : String) : Bool :=
  match s.toList with
  | [y1, y2, y3, y4, '-', m1, m2, '-', d1, d2] =>
      [y1, y2, y3, y4, m1, m2, d1, d2].all Char.isDigit &&
        let year := Nat.ofDigitChars 10 [y1, y2, y3, y4] 0
        let month := Nat.ofDigitChars 10 [m1, m2] 0
        let day := Nat.ofDigitChars 10 [d1, d2] 0
        match (Calendar.monthLengths (Calendar.isLeap year))[month - 1]? with
        | some length => 1 ≤ month && 1 ≤ day && decide ((day : Int) ≤ length)
        | none => false
  | _ => false

/-! ### Checks shared by the validators -/

/-- Stop with an error unless a check holds. -/
def check (holds : Bool) (error : String) : Except String Unit :=
  if holds then .ok () else .error error

/-- At most `max` code points. -/
def checkLength (s : String) (max : Nat) (error : String) : Except String Unit :=
  check (s.length ≤ max) error

/-- The year of an optional time is between 2000 and 2100. -/
def checkYear (t : Option DateTime) (error : String) : Except String Unit :=
  match t with
  | none => .ok ()
  | some t => check (2000 ≤ t.year && t.year ≤ 2100) error

def isValidStatus : IssueStatus → Bool
  | .other _ => false
  | _ => true

def isValidPriority : IssuePriority → Bool
  | .normal | .high => true
  | _ => false

def isValidRole : UserRole → Bool
  | .other _ => false
  | _ => true

/-! ### The validators -/

def validateStatusName (name : String) : Except String String := do
  let name := trimSpace name
  if name = "" then
    return name  -- the column is hidden
  check (statusNameMatches name) "column name must contain only letters, digits and single spaces"
  checkLength name 15 "column name must not exceed 15 characters"
  return name

def validateStatusConfig (cfg : StatusConfig) : Except String StatusConfig := do
  let stage1Name ← validateStatusName cfg.stage1Name
  let stage2Name ← validateStatusName cfg.stage2Name
  let stage3Name ← validateStatusName cfg.stage3Name
  let stage4Name ← validateStatusName cfg.stage4Name
  return { cfg with stage1Name, stage2Name, stage3Name, stage4Name }

def validateProject (host : Host) (p : Project) : Except String Project := do
  let name := host.toLower (sanitizeString p.name)
  check (name != "") "project name is required"
  checkLength name 15 "project name must not exceed 15 characters"
  let description := sanitizeString p.description
  checkLength description 100 "project description must not exceed 100 characters"
  return { p with name, description }

def validateIssue (i : Issue) : Except String Issue := do
  let title := sanitizeString i.title
  check (title != "") "title is required"
  checkLength title 100 "title must not exceed 100 characters"
  let description := trimSpace (removeNul i.description)
  checkLength description 5000 "description must not exceed 5000 characters"
  check (isValidStatus i.status) "invalid status"
  check (i.priority = .unset || isValidPriority i.priority) "invalid priority"
  check (0 ≤ i.position) "position must be non-negative"
  checkYear i.deadline "deadline year must be between 2000 and 2100"
  check ((i.plannedDates.getD []).length ≤ 100) "too many planned dates (maximum 100)"
  check ((i.plannedDates.getD []).all isDate) "date must be in YYYY-MM-DD format"
  return { i with title, description }

def validateTask (t : Task) : Except String Task := do
  let title := sanitizeString t.title
  check (title != "") "title is required"
  checkLength title 100 "title must not exceed 100 characters"
  check (0 ≤ t.position) "position must be non-negative"
  checkYear t.deadline "deadline year must be between 2000 and 2100"
  return { t with title }

/-- The entries of a reorder request after those with the ids `seen`. -/
def validatePositionEntries (seen : List Int) : List PositionUpdate → Except String Unit
  | [] => .ok ()
  | u :: rest => do
      check (0 < u.id) "position entries require a valid id"
      check (0 ≤ u.position) "position must be non-negative"
      check (!seen.contains u.id) "each id may appear only once"
      validatePositionEntries (u.id :: seen) rest

def validatePositionUpdates (p : List PositionUpdate) : Except String (List PositionUpdate) := do
  check (p.length != 0) "at least one position is required"
  check (p.length ≤ 500) "too many positions (maximum 500)"
  validatePositionEntries [] p
  return p

def validateComment (c : Comment) : Except String Comment := do
  let body := trimSpace (removeNul c.body)
  check (body != "") "comment must not be empty"
  checkLength body 1000 "comment must not exceed 1000 characters"
  return { c with body }

def validateLabel (l : Label) : Except String Label := do
  let name := sanitizeString l.name
  let color := trimSpace l.color
  check (name != "" && color != "") "label name and color are required"
  checkLength name 15 "label name must not exceed 15 characters"
  check (colorMatches color) "color must be a valid hex color (#RRGGBB)"
  return { l with name, color }

/-- The checks that `validateUser` and `validateUserRequest` share. -/
def checkUserFields (email firstName lastName : String) (role : UserRole) : Except String Unit := do
  check (email != "" && emailMatches email) "valid email is required"
  check (email.utf8ByteSize ≤ 254) "email must not exceed 254 characters"
  check (firstName != "" && lastName != "") "first name and last name are required"
  check (firstName.length ≤ 50 && lastName.length ≤ 50)
    "first and last name must not exceed 50 characters"
  check (isValidRole role) "role must be 'admin', 'user', or 'sysadmin'"

def validateUser (u : User) : Except String User := do
  let email := trimSpace u.email
  let firstName := sanitizeString u.firstName
  let lastName := sanitizeString u.lastName
  checkUserFields email firstName lastName u.role
  return { u with email, firstName, lastName }

def validateRelease (r : Release) : Except String Release := do
  let name := sanitizeString r.name
  check (name != "") "release name is required"
  checkLength name 20 "release name must not exceed 20 characters"
  let description := sanitizeString r.description
  checkLength description 200 "release description must not exceed 200 characters"
  checkYear r.startDate "start date year must be between 2000 and 2100"
  checkYear r.releaseDate "release date year must be between 2000 and 2100"
  match r.startDate, r.releaseDate with
  | some start, some release =>
      check (start.instant ≤ release.instant) "release date must not be before start date"
  | _, _ => pure ()
  return { r with name, description }

/-! ### Request bodies of the account handlers -/

structure LoginRequest where
  email : String := ""
  password : String := ""

structure UserRequest where
  email : String := ""
  firstName : String := ""
  lastName : String := ""
  password : String := ""
  adminPassword : String := ""
  currentPassword : String := ""
  role : UserRole := .other ""
  active : Bool := false

def validateLoginRequest (req : LoginRequest) : Except String LoginRequest := do
  let email := trimSpace req.email
  check (email != "" && emailMatches email) "valid email is required"
  check (email.utf8ByteSize ≤ 254) "email must not exceed 254 characters"
  check (req.password != "") "password is required"
  check (req.password.utf8ByteSize ≤ 72) passwordTooLong
  return { req with email }
where
  passwordTooLong := "password must not exceed 72 bytes (letters, digits and common symbols count 1, " ++
    "umlauts and accented letters 2, emoji 4)"

def validateUserRequest (req : UserRequest) : Except String UserRequest := do
  let email := trimSpace req.email
  let firstName := trimSpace req.firstName
  let lastName := trimSpace req.lastName
  checkUserFields email firstName lastName req.role
  return { req with email, firstName, lastName }

/-! ### The password policy -/

def passwordBlacklist : List String :=
  ["password", "qwerty", "admin", "welcome", "login",
   "manager", "master", "dragon", "baseball", "football",
   "shadow", "sunshine", "freedom", "charlie", "iloveyou",
   "princess", "monkey", "donald", "michael",
   "123456", "111111", "000000", "abcdef",
   "passwort", "geheim", "hallo", "willkommen",
   "sommer", "winter", "herbst", "fruehling",
   "schatz", "liebe", "sonne", "mond", "sterne",
   "qwertz", "asdfgh", "yxcvbn",
   "fussball", "musik", "schule", "arbeit"]

/-- The leetspeak substitutions of `isBlacklistedPassword`. -/
def unleet (c : Char) : Char :=
  match c with
  | '0' => 'o' | '1' => 'i' | '3' => 'e' | '4' => 'a' | '5' => 's' | '@' => 'a' | '$' => 's'
  | '!' => 'i' | other => other

/-- `strings.Contains`. -/
def containsText (text part : List Char) : Bool := text.tails.any part.isPrefixOf

def isBlacklistedPassword (host : Host) (pw : String) : Bool :=
  let normalized := (host.toLower pw).toList.map unleet
  passwordBlacklist.any fun blocked =>
    if 4 ≤ blocked.utf8ByteSize then containsText normalized blocked.toList
    else normalized == blocked.toList

def validatePassword (host : Host) (password email : String) : Except String Unit := do
  check (12 ≤ password.length) "password must be at least 12 characters"
  check (password.utf8ByteSize ≤ 72) validateLoginRequest.passwordTooLong
  check (!host.equalFold password email) "password must not be your email address"
  check (!isBlacklistedPassword host password) "password is too common"

end Wuflow
