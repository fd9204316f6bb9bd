import ProximityNet.Proofs.Words

/-!
# JSON texts are read back

A text of a value, over several lines or without blanks, is first cut into the tokens of the value,
and these are then put together again.  Both halves are about a piece of text, or a row of tokens,
with anything behind it: behind a word there must be something that is no part of it.

* `Json.tokens` — the tokens of a value in the order of its text;
* `Json.Written` — values that can be read back;
* `scanFrom_quoted`, `scanFrom_word` — the strings and the words of a text;
* `Spells`, `Spells.append` — a piece of text stands for some tokens, wherever it stands;
* `Builds`, `run_itemTokens`, `run_entryTokens` — tokens that are put together to a value;
* `Written.spells_pretty`, `Written.spells_compact` — the first half, for either text;
* `Written.builds_tokens` — the second half;
* `Written.read?_pretty`, `Written.read?_compact` — either text of a value reads as that value.
-/

namespace ProximityNet

/-! ### Tokens of values -/

namespace Json

/-- Whether a character is written with an escape. -/
def needsEscape (c : Char) : Bool := c = '"' || c = '\\' || c.toNat < 0x20

/-- How a text is spelled when it is written. -/
def spellingOf (s : String) : JsonSpelling :=
  if s.toList.any needsEscape then .escaped (some s) else .plain s

theorem text?_spellingOf (s : String) : (spellingOf s).text? = some s := by
  rw [spellingOf]
  split <;> rfl

mutual

/-- The tokens of a value. -/
def tokens : Json → List JsonToken
  | array [] => [.openArray, .closeArray]
  | array (v :: rest) => .openArray :: v.tokens ++ itemTokens rest ++ [.closeArray]
  | object [] => [.openObject, .closeObject]
  | object ((k, v) :: rest) =>
    .openObject :: .string k :: .colon :: v.tokens ++ entryTokens rest ++ [.closeObject]
  | string s => [.string (spellingOf (s.getD ""))]
  | v => [.scalar v]

def itemTokens : List Json → List JsonToken
  | [] => []
  | v :: rest => .comma :: v.tokens ++ itemTokens rest

def entryTokens : List (JsonSpelling × Json) → List JsonToken
  | [] => []
  | (k, v) :: rest => .comma :: .string k :: .colon :: v.tokens ++ entryTokens rest

end

/-- Values that are as their text says: numbers that are read back, strings that stand for a text,
and keys that are spelled as they are written. -/
inductive Written : Json → Prop
  | null : Written null
  | bool (b : Bool) : Written (bool b)
  | number {n : JsonNumber} (reads : n.ReadsBack) : Written (number n)
  | text (s : String) : Written (text s)
  | array {items : List Json} (each : ∀ v ∈ items, Written v) : Written (array items)
  | object {entries : List (JsonSpelling × Json)}
      (keys : ∀ e ∈ entries, ∃ s, e.1 = spellingOf s) (values : ∀ e ∈ entries, Written e.2) :
      Written (object entries)

end Json

namespace JsonToken

/-! ### Single characters -/

/-- A character that completes no token. -/
theorem scanFrom_cons {mode mode' : ScanMode} {c : Char} (rest : List Char)
    (h : scanStep mode c = some (mode', [])) : scanFrom mode (c :: rest) = scanFrom mode' rest := by
  rw [scanFrom, h]
  exact Option.map_id_apply

theorem scanFrom_blank {c : Char} (rest : List Char) (h : isBlank c = true) :
    scanFrom .between (c :: rest) = scanFrom .between rest :=
  scanFrom_cons rest (by rw [scanStep, begin?, if_pos h])

theorem scanFrom_mark {c : Char} {t : JsonToken} (rest : List Char)
    (h : scanStep .between c = some (.between, [t])) :
    scanFrom .between (c :: rest) = (scanFrom .between rest).map (t :: ·) := by
  rw [scanFrom, h]
  rfl

/-! ### Strings -/

/-- A string that is a text so far. -/
def textPart (reversed : List Char) (escaped : Bool) : StringPart := ⟨reversed, true, escaped, none⟩

section Strings

variable (reversed : List Char) (escaped : Bool) (rest : List Char)

theorem scanFrom_plainChar {c : Char} (h : Json.needsEscape c = false) :
    scanFrom (.string (textPart reversed escaped)) (c :: rest) =
      scanFrom (.string (textPart (c :: reversed) escaped)) rest := by
  simp only [Json.needsEscape, Bool.or_eq_false_iff, decide_eq_false_iff_not] at h
  obtain ⟨⟨hquote, hbackslash⟩, hcontrol⟩ := h
  refine scanFrom_cons rest ?_
  rw [scanStep, if_neg hquote, if_neg hbackslash, if_neg hcontrol]
  rfl

theorem scanFrom_escape {c name : Char} (hname : name ≠ 'u') (h : unescape? name = some c)
    (hc : Json.needsEscape c = true) :
    scanFrom (.string (textPart reversed escaped)) ('\\' :: name :: rest) =
      scanFrom (.string (textPart (c :: reversed) (escaped || Json.needsEscape c))) rest := by
  have hescape : scanStep (.escape (textPart reversed true)) name =
      some (.string (textPart (c :: reversed) true), []) := by
    rw [scanStep, if_neg hname, h]
    rfl
  rw [hc, Bool.or_true]
  exact (scanFrom_cons _ rfl).trans (scanFrom_cons _ hescape)

theorem hexValue?_digitChar : ∀ d < 16, hexValue? (Nat.digitChar d) = some d := by decide

/-- A control character is written as a UTF-16 unit. -/
theorem scanFrom_unit {c : Char} (h : c.toNat < 0x20) :
    scanFrom (.string (textPart reversed escaped))
        ('\\' :: 'u' :: '0' :: '0' :: Nat.digitChar (c.toNat / 16) ::
          Nat.digitChar (c.toNat % 16) :: rest) =
      scanFrom (.string (textPart (c :: reversed) (escaped || Json.needsEscape c))) rest := by
  have hc : Json.needsEscape c = true := by simp [Json.needsEscape, h]
  have hhigh : scanStep (.unit (textPart reversed true) 2 0) (Nat.digitChar (c.toNat / 16)) =
      some (.unit (textPart reversed true) 1 (c.toNat / 16), []) := by
    simp [scanStep, hexValue?_digitChar (c.toNat / 16) (by omega)]
  have hlow : scanStep (.unit (textPart reversed true) 1 (c.toNat / 16))
      (Nat.digitChar (c.toNat % 16)) = some (.string (textPart (c :: reversed) true), []) := by
    have hunit : c.toNat / 16 * 16 + c.toNat % 16 = c.toNat := Nat.div_add_mod' _ _
    have hpush : (textPart reversed true).pushUnit c.toNat = textPart (c :: reversed) true := by
      rw [StringPart.pushUnit, if_neg (by omega), if_neg (by omega), Char.ofNat_toNat]
      rfl
    simp [scanStep, hexValue?_digitChar (c.toNat % 16) (by omega), hunit, hpush]
  rw [hc, Bool.or_true]
  calc
    _ = scanFrom (.unit (textPart reversed true) 2 0) (Nat.digitChar (c.toNat / 16) ::
          Nat.digitChar (c.toNat % 16) :: rest) :=
      (scanFrom_cons _ rfl).trans <| (scanFrom_cons _ rfl).trans <|
        (scanFrom_cons _ rfl).trans (scanFrom_cons _ rfl)
    _ = scanFrom (.unit (textPart reversed true) 1 (c.toNat / 16))
          (Nat.digitChar (c.toNat % 16) :: rest) := scanFrom_cons _ hhigh
    _ = scanFrom (.string (textPart (c :: reversed) true)) rest := scanFrom_cons _ hlow

/-- A character in a string is read back. -/
theorem scanFrom_escapedChar (c : Char) :
    scanFrom (.string (textPart reversed escaped)) (Json.escapedChar c ++ rest) =
      scanFrom (.string (textPart (c :: reversed) (escaped || Json.needsEscape c))) rest := by
  rw [Json.escapedChar]
  split_ifs with hquote hbackslash h h h h h hcontrol
  case neg =>
    have hplain : Json.needsEscape c = false := by
      simp [Json.needsEscape, hquote, hbackslash, hcontrol]
    rw [hplain, Bool.or_false]
    exact scanFrom_plainChar reversed escaped rest hplain
  · subst hquote
    exact scanFrom_escape reversed escaped rest (by decide) rfl (by decide)
  · subst hbackslash
    exact scanFrom_escape reversed escaped rest (by decide) rfl (by decide)
  iterate 5
    · subst h
      exact scanFrom_escape reversed escaped rest (by decide) rfl (by decide)
  · exact scanFrom_unit reversed escaped rest hcontrol

theorem scanFrom_escapedChars (cs : List Char) :
    scanFrom (.string (textPart reversed escaped)) (cs.flatMap Json.escapedChar ++ rest) =
      scanFrom (.string (textPart (cs.reverse ++ reversed) (escaped || cs.any Json.needsEscape)))
        rest := by
  induction cs generalizing reversed escaped with
  | nil => rw [List.any_nil, Bool.or_false]; rfl
  | cons c cs ih =>
    rw [List.flatMap_cons, List.append_assoc, scanFrom_escapedChar, ih, List.reverse_cons,
      List.append_assoc, List.any_cons, Bool.or_assoc]
    rfl

/-- A string is read back with its spelling. -/
theorem scanFrom_quoted (s : String) :
    scanFrom .between (Json.quoted s ++ rest) =
      (scanFrom .between rest).map (.string (Json.spellingOf s) :: ·) := by
  have hfinish : (textPart (s.toList.reverse ++ [])
      (false || s.toList.any Json.needsEscape)).finish = Json.spellingOf s := by
    rw [List.append_nil, Bool.false_or, Json.spellingOf, StringPart.finish, textPart]
    dsimp only
    rw [List.reverse_reverse, String.ofList_toList]
    rfl
  have hopen : scanFrom .between (Json.quoted s ++ rest) =
      scanFrom (.string (textPart [] false))
        (s.toList.flatMap Json.escapedChar ++ '"' :: rest) := by
    rw [Json.quoted, List.append_assoc]
    exact scanFrom_cons _ rfl
  rw [hopen, scanFrom_escapedChars, scanFrom, scanStep, if_pos rfl, hfinish]
  rfl

end Strings

/-! ### Words -/

/-- Nothing here belongs to a word that stands before it. -/
def Parted (cs : List Char) : Prop := ∀ c ∈ cs.head?, isWordChar c = false

theorem Parted.append {cs cs' : List Char} (h : Parted cs) (h' : Parted cs') :
    Parted (cs ++ cs') := by
  cases cs with
  | nil => exact h'
  | cons c rest => exact h

/-- A word begins where no other is being read. -/
theorem scanStep_of_isWordChar {c : Char} (h : isWordChar c = true) :
    scanStep .between c = some (.word [c], []) := by
  have hother : ∀ c', isWordChar c' = false → c ≠ c' := by
    rintro c' hc' rfl
    exact Bool.false_ne_true (hc'.symm.trans h)
  have hblank : ¬ isBlank c = true := by
    simp only [isBlank, Bool.or_eq_true, decide_eq_true_eq, not_or]
    exact ⟨⟨⟨hother _ rfl, hother _ rfl⟩, hother _ rfl⟩, hother _ rfl⟩
  rw [scanStep, begin?, if_neg hblank, if_neg (hother _ rfl), if_pos h]

theorem scanFrom_wordChars {cs : List Char} (h : ∀ c ∈ cs, isWordChar c = true)
    (reversed rest : List Char) :
    scanFrom (.word reversed) (cs ++ rest) = scanFrom (.word (cs.reverse ++ reversed)) rest := by
  induction cs generalizing reversed with
  | nil => rfl
  | cons c cs ih =>
    obtain ⟨hc, hcs⟩ := List.forall_mem_cons.mp h
    have hstep : scanStep (.word reversed) c = some (.word (c :: reversed), []) := by
      rw [scanStep, if_pos hc]
    rw [List.cons_append, scanFrom_cons _ hstep, ih hcs, List.reverse_cons, List.append_assoc]
    rfl

theorem scanFrom_wordEnd {reversed rest : List Char} {t : JsonToken}
    (h : ofWord? reversed.reverse = some t) (hrest : Parted rest) :
    scanFrom (.word reversed) rest = (scanFrom .between rest).map (t :: ·) := by
  cases rest with
  | nil =>
    rw [scanFrom, scanEnd, h]
    rfl
  | cons c rest =>
    have hc : isWordChar c = false := hrest c rfl
    rw [scanFrom, scanFrom, scanStep, scanStep, if_neg (by rw [hc]; decide), h]
    cases begin? c with
    | none => rfl
    | some p =>
      show (scanFrom p.1 rest).map (t :: p.2 ++ ·) =
        ((scanFrom p.1 rest).map (p.2 ++ ·)).map (t :: ·)
      rw [Option.map_map]
      rfl

/-- A word, with something behind it that does not belong to it. -/
theorem scanFrom_word {cs : List Char} {t : JsonToken} (hne : cs ≠ [])
    (hword : ∀ c ∈ cs, isWordChar c = true) (h : ofWord? cs = some t) {rest : List Char}
    (hrest : Parted rest) :
    scanFrom .between (cs ++ rest) = (scanFrom .between rest).map (t :: ·) := by
  obtain ⟨c, cs, rfl⟩ := List.exists_cons_of_ne_nil hne
  obtain ⟨hc, hcs⟩ := List.forall_mem_cons.mp hword
  rw [List.cons_append, scanFrom_cons _ (scanStep_of_isWordChar hc), scanFrom_wordChars hcs]
  refine scanFrom_wordEnd ?_ hrest
  rw [List.reverse_append, List.reverse_reverse]
  exact h

/-! ### Pieces of a text -/

/-- A piece of a text stands for these tokens, wherever what follows is no part of its last word. -/
def Spells (cs : List Char) (ts : List JsonToken) : Prop :=
  ∀ rest, Parted rest → scanFrom .between (cs ++ rest) = (scanFrom .between rest).map (ts ++ ·)

namespace Spells

variable {cs cs' : List Char} {ts ts' : List JsonToken}

theorem nil : Spells [] [] := fun _ _ => Option.map_id_apply.symm

theorem append (h : Spells cs ts) (h' : Spells cs' ts') (hparted : Parted cs') :
    Spells (cs ++ cs') (ts ++ ts') := by
  intro rest hrest
  rw [List.append_assoc, h _ (hparted.append hrest), h' rest hrest, Option.map_map]
  refine congrArg (Option.map · _) (funext fun after => ?_)
  exact (List.append_assoc ..).symm

theorem blank {c : Char} (hc : isBlank c = true) (h : Spells cs ts) : Spells (c :: cs) ts :=
  fun rest hrest => (scanFrom_blank (cs ++ rest) hc).trans (h rest hrest)

theorem mark {c : Char} {t : JsonToken} (hc : scanStep .between c = some (.between, [t]))
    (h : Spells cs ts) : Spells (c :: cs) (t :: ts) := by
  intro rest hrest
  rw [List.cons_append, scanFrom_mark (cs ++ rest) hc, h rest hrest, Option.map_map]
  rfl

theorem lineStart (level : Nat) (h : Spells cs ts) : Spells (Json.lineStart level ++ cs) ts := by
  refine blank rfl ?_
  induction 2 * level with
  | zero => exact h
  | succ n ih => exact blank rfl ih

theorem quoted (s : String) : Spells (Json.quoted s) [.string (Json.spellingOf s)] :=
  fun rest _ => scanFrom_quoted rest s

theorem word {t : JsonToken} (hne : cs ≠ []) (hword : ∀ c ∈ cs, isWordChar c = true)
    (h : ofWord? cs = some t) : Spells cs [t] :=
  fun _ hrest => scanFrom_word hne hword h hrest

theorem null : Spells ['n', 'u', 'l', 'l'] [.scalar .null] :=
  word (by decide) (List.all_eq_true.mp rfl) rfl

theorem bool (b : Bool) : Spells (Json.scalarText (.bool b)) [.scalar (.bool b)] := by
  have htrue : Spells ['t', 'r', 'u', 'e'] [.scalar (.bool true)] :=
    word (by decide) (List.all_eq_true.mp rfl) rfl
  have hfalse : Spells ['f', 'a', 'l', 's', 'e'] [.scalar (.bool false)] :=
    word (by decide) (List.all_eq_true.mp rfl) rfl
  cases b
  · exact hfalse
  · exact htrue

theorem number {n : JsonNumber} (h : n.ReadsBack) :
    Spells (Json.numberText n).toList [.scalar (.number n)] :=
  word (isWordChar_of_ofChars? h).1 (isWordChar_of_ofChars? h).2 (ofWord?_of_ofChars? h)

end Spells

theorem parted_cons {c : Char} (cs : List Char) (h : isWordChar c = false) : Parted (c :: cs) := by
  intro c' hc'
  obtain rfl := Option.some.inj hc'
  exact h

theorem parted_lineStart (level : Nat) (cs : List Char) : Parted (Json.lineStart level ++ cs) :=
  parted_cons _ rfl

end JsonToken

namespace Json

open JsonToken

theorem parted_prettyItems (level : Nat) (items : List Json) :
    Parted (prettyItems level items) := by
  cases items with
  | nil => rintro c ⟨⟩
  | cons v rest => exact parted_cons _ rfl

theorem parted_prettyEntries (level : Nat) (entries : List (JsonSpelling × Json)) :
    Parted (prettyEntries level entries) := by
  cases entries with
  | nil => rintro c ⟨⟩
  | cons e rest => exact parted_cons _ rfl

theorem spells_prettyItems {level : Nat} {items : List Json}
    (h : ∀ v ∈ items, Spells (v.prettyChars level) v.tokens) :
    Spells (prettyItems level items) (itemTokens items) := by
  induction items with
  | nil => exact .nil
  | cons v rest ih =>
    obtain ⟨hv, hrest⟩ := List.forall_mem_cons.mp h
    rw [prettyItems, itemTokens, List.append_assoc, List.cons_append]
    exact .mark rfl (.lineStart level (hv.append (ih hrest) (parted_prettyItems level rest)))

/-- A key with the text of its value. -/
theorem spells_entry {k : JsonSpelling} {s : String} {cs : List Char} {ts : List JsonToken}
    (hk : k = spellingOf s) (hvalue : Spells cs ts) :
    Spells (stringText k.text? ++ ':' :: cs) (.string k :: .colon :: ts) := by
  rw [hk, text?_spellingOf]
  exact (Spells.quoted s).append (.mark rfl hvalue) (parted_cons cs rfl)

theorem spells_prettyEntries {level : Nat} {entries : List (JsonSpelling × Json)}
    (hkeys : ∀ e ∈ entries, ∃ s, e.1 = spellingOf s)
    (hvalues : ∀ e ∈ entries, Spells (e.2.prettyChars level) e.2.tokens) :
    Spells (prettyEntries level entries) (entryTokens entries) := by
  induction entries with
  | nil => exact .nil
  | cons e rest ih =>
    obtain ⟨k, v⟩ := e
    obtain ⟨⟨s, hk⟩, hkeys⟩ := List.forall_mem_cons.mp hkeys
    obtain ⟨hv, hvalues⟩ := List.forall_mem_cons.mp hvalues
    have hvalue := hv.blank (c := ' ') rfl
    have hentry := (spells_entry hk hvalue).append (ih hkeys hvalues)
      (parted_prettyEntries level rest)
    rw [prettyEntries, entryTokens]
    simp only [List.append_assoc, List.cons_append] at hentry ⊢
    exact .mark rfl (.lineStart level hentry)

/-- The text of a value is cut into the tokens of the value. -/
theorem Written.spells_pretty {v : Json} (h : v.Written) (level : Nat) :
    Spells (v.prettyChars level) v.tokens := by
  induction h generalizing level with
  | null => exact .null
  | bool b => exact .bool b
  | number reads => exact .number reads
  | text s => exact .quoted s
  | @array items each ih =>
    have hclose : Spells (lineStart level ++ [']']) [.closeArray] :=
      .lineStart level (.mark rfl .nil)
    cases items with
    | nil => exact .mark rfl (.mark rfl .nil)
    | cons v rest =>
      obtain ⟨hv, hrest⟩ := List.forall_mem_cons.mp ih
      have hitems := (spells_prettyItems fun v hv => hrest v hv (level + 1)).append hclose
        (parted_lineStart level _)
      rw [prettyChars, tokens]
      simp only [List.append_assoc, List.cons_append]
      exact .mark rfl (.lineStart _ ((hv (level + 1)).append hitems
        ((parted_prettyItems _ rest).append (parted_lineStart level _))))
  | @object entries keys values ih =>
    have hclose : Spells (lineStart level ++ ['\x7d']) [.closeObject] :=
      .lineStart level (.mark rfl .nil)
    cases entries with
    | nil => exact .mark rfl (.mark rfl .nil)
    | cons e rest =>
      obtain ⟨k, v⟩ := e
      obtain ⟨⟨s, hk⟩, hkeys⟩ := List.forall_mem_cons.mp keys
      obtain ⟨hv, hvalues⟩ := List.forall_mem_cons.mp ih
      have hentries := (spells_prettyEntries hkeys fun e he => hvalues e he (level + 1)).append
        hclose (parted_lineStart level _)
      have hvalue := (hv (level + 1)).blank (c := ' ') rfl
      have hall := (spells_entry hk hvalue).append hentries
        ((parted_prettyEntries _ rest).append (parted_lineStart level _))
      rw [prettyChars, tokens]
      simp only [List.append_assoc, List.cons_append] at hall ⊢
      exact .mark rfl (.lineStart _ hall)

/-! ### Texts without blanks -/

theorem parted_compactItems (items : List Json) : Parted (compactItems items) := by
  cases items with
  | nil => rintro c ⟨⟩
  | cons v rest => exact parted_cons _ rfl

theorem parted_compactEntries (entries : List (JsonSpelling × Json)) :
    Parted (compactEntries entries) := by
  cases entries with
  | nil => rintro c ⟨⟩
  | cons e rest => exact parted_cons _ rfl

theorem spells_compactItems {items : List Json}
    (h : ∀ v ∈ items, Spells v.compactChars v.tokens) :
    Spells (compactItems items) (itemTokens items) := by
  induction items with
  | nil => exact .nil
  | cons v rest ih =>
    obtain ⟨hv, hrest⟩ := List.forall_mem_cons.mp h
    exact .mark rfl (hv.append (ih hrest) (parted_compactItems rest))

theorem spells_compactEntries {entries : List (JsonSpelling × Json)}
    (hkeys : ∀ e ∈ entries, ∃ s, e.1 = spellingOf s)
    (hvalues : ∀ e ∈ entries, Spells e.2.compactChars e.2.tokens) :
    Spells (compactEntries entries) (entryTokens entries) := by
  induction entries with
  | nil => exact .nil
  | cons e rest ih =>
    obtain ⟨k, v⟩ := e
    obtain ⟨⟨s, hk⟩, hkeys⟩ := List.forall_mem_cons.mp hkeys
    obtain ⟨hv, hvalues⟩ := List.forall_mem_cons.mp hvalues
    have hentry := (spells_entry hk hv).append (ih hkeys hvalues) (parted_compactEntries rest)
    rw [compactEntries, entryTokens]
    simp only [List.append_assoc, List.cons_append] at hentry ⊢
    exact .mark rfl hentry

/-- So is the text without blanks. -/
theorem Written.spells_compact {v : Json} (h : v.Written) : Spells v.compactChars v.tokens := by
  induction h with
  | null => exact .null
  | bool b => exact .bool b
  | number reads => exact .number reads
  | text s => exact .quoted s
  | @array items each ih =>
    cases items with
    | nil => exact .mark rfl (.mark rfl .nil)
    | cons v rest =>
      obtain ⟨hv, hrest⟩ := List.forall_mem_cons.mp ih
      have hclose : Spells [']'] [.closeArray] := .mark rfl .nil
      have hitems := (spells_compactItems hrest).append hclose (parted_cons [] rfl)
      rw [compactChars, tokens]
      simp only [List.append_assoc, List.cons_append]
      exact .mark rfl (hv.append hitems
        ((parted_compactItems rest).append (parted_cons [] rfl)))
  | @object entries keys values ih =>
    cases entries with
    | nil => exact .mark rfl (.mark rfl .nil)
    | cons e rest =>
      obtain ⟨k, v⟩ := e
      obtain ⟨⟨s, hk⟩, hkeys⟩ := List.forall_mem_cons.mp keys
      obtain ⟨hv, hvalues⟩ := List.forall_mem_cons.mp ih
      have hclose : Spells ['\x7d'] [.closeObject] := .mark rfl .nil
      have hentries := (spells_compactEntries hkeys hvalues).append hclose (parted_cons [] rfl)
      have hall := (spells_entry hk hv).append hentries
        ((parted_compactEntries rest).append (parted_cons [] rfl))
      rw [compactChars, tokens]
      simp only [List.append_assoc, List.cons_append] at hall ⊢
      exact .mark rfl hall

end Json

/-! ### Putting tokens together -/

namespace JsonState

theorem run_cons {s s' : JsonState} {t : JsonToken} (rest : List JsonToken)
    (h : step s t = some s') : run s (t :: rest) = run s' rest := by
  rw [run, h]

/-- Tokens that are put together to a value wherever one is waited for. -/
def Builds (ts : List JsonToken) (v : Json) : Prop :=
  ∀ outer rest, run (.value outer) (ts ++ rest) = run (complete v outer) rest

/-- The first item of an array is a value like any other, since no value begins with the mark that
ends an array. -/
theorem Builds.firstItem {ts : List JsonToken} {v : Json} (h : Builds ts v)
    (outer : List JsonFrame) (rest : List JsonToken) :
    run (.firstItem outer) (ts ++ rest) = run (complete v (.array [] :: outer)) rest := by
  rw [← h (.array [] :: outer) rest]
  have halone : run (.value []) (ts ++ []) = some (.done v) := h [] []
  cases ts with
  | nil => cases halone
  | cons t ts =>
    cases t with
    | closeArray => cases halone
    | _ => rfl

theorem run_itemTokens {items : List Json} (h : ∀ v ∈ items, Builds v.tokens v)
    (done : List Json) (outer : List JsonFrame) (rest : List JsonToken) :
    run (.itemEnd done outer) (Json.itemTokens items ++ rest) =
      run (.itemEnd (items.reverse ++ done) outer) rest := by
  induction items generalizing done with
  | nil => rfl
  | cons v items ih =>
    obtain ⟨hv, hitems⟩ := List.forall_mem_cons.mp h
    rw [Json.itemTokens, List.append_assoc, List.cons_append, run_cons _ rfl, hv, complete,
      ih hitems, List.reverse_cons, List.append_assoc]
    rfl

theorem run_entryTokens {entries : List (JsonSpelling × Json)}
    (h : ∀ e ∈ entries, Builds e.2.tokens e.2) (done : List (JsonSpelling × Json))
    (outer : List JsonFrame) (rest : List JsonToken) :
    run (.entryEnd done outer) (Json.entryTokens entries ++ rest) =
      run (.entryEnd (entries.reverse ++ done) outer) rest := by
  induction entries generalizing done with
  | nil => rfl
  | cons e entries ih =>
    obtain ⟨k, v⟩ := e
    obtain ⟨hv, hentries⟩ := List.forall_mem_cons.mp h
    rw [Json.entryTokens, List.append_assoc, List.cons_append, List.cons_append, List.cons_append,
      run_cons _ rfl, run_cons _ rfl, run_cons _ rfl, hv, complete, ih hentries, List.reverse_cons,
      List.append_assoc]
    rfl

end JsonState

namespace Json

open JsonState

/-- The tokens of a value are put together to that value. -/
theorem Written.builds_tokens {v : Json} (h : v.Written) : Builds v.tokens v := by
  induction h with
  | null => exact fun _ _ => rfl
  | bool b => exact fun _ _ => rfl
  | number _ => exact fun _ _ => rfl
  | text s =>
    intro outer rest
    rw [Json.text, tokens, List.singleton_append, run_cons _ rfl, Option.getD_some,
      text?_spellingOf]
  | @array items each ih =>
    intro outer rest
    cases items with
    | nil => rfl
    | cons v items =>
      obtain ⟨hv, hitems⟩ := List.forall_mem_cons.mp ih
      rw [tokens, List.append_assoc, List.append_assoc, List.cons_append, run_cons _ rfl,
        hv.firstItem, complete, run_itemTokens hitems, List.singleton_append, run_cons _ rfl]
      simp
  | @object entries keys values ih =>
    intro outer rest
    cases entries with
    | nil => rfl
    | cons e entries =>
      obtain ⟨k, v⟩ := e
      obtain ⟨hv, hentries⟩ := List.forall_mem_cons.mp ih
      rw [tokens, List.append_assoc, List.append_assoc, List.cons_append, List.cons_append,
        List.cons_append, run_cons _ rfl, run_cons _ rfl, run_cons _ rfl, hv, complete,
        run_entryTokens hentries, List.singleton_append, run_cons _ rfl]
      simp

/-- A text that is cut into the tokens of a value reads as that value. -/
theorem Written.read?_of_spells {v : Json} {cs : List Char} (h : v.Written)
    (hspells : JsonToken.Spells cs v.tokens) : read? (String.ofList cs) = some v := by
  have hscan : JsonToken.scan cs = some v.tokens := by
    have hall := hspells [] (by rintro c ⟨⟩)
    rw [List.append_nil] at hall
    refine hall.trans ?_
    rw [JsonToken.scanFrom, JsonToken.scanEnd, Option.map_some, List.append_nil]
  have hrun : JsonState.run (.value []) v.tokens = some (.done v) := by
    have hbuilds := h.builds_tokens [] []
    rw [List.append_nil] at hbuilds
    exact hbuilds
  rw [read?, String.toList_ofList, hscan, Option.bind_some, ofTokens?, hrun]

/-- The text of a value over several lines reads as that value. -/
theorem Written.read?_pretty {v : Json} (h : v.Written) : read? v.pretty = some v :=
  h.read?_of_spells (h.spells_pretty 0)

/-- The text of a value without blanks reads as that value. -/
theorem Written.read?_compact {v : Json} (h : v.Written) : read? v.compact = some v :=
  h.read?_of_spells h.spells_compact

end Json

end ProximityNet
