import Mathlib.Data.List.Forall2
import RecordSearch.Proofs.Numeral
import RecordSearch.Json.Printer
import RecordSearch.Json.Tree
import RecordSearch.Request.Json

/-!
# Printed text

Text that was printed is read as the tree it stands for. `Prints` says so of a
text at any place where a value may come, whatever is open around it and whatever
follows, so that it passes from the parts of an array or an object to the whole.
-/
namespace RecordSearch.Json

theorem hexValue_hexDigit : ∀ n < 16, hexValue (hexDigit n) = some n := by decide

theorem codeUnit_hexDigit {n : Nat} (h : n < 256) :
    codeUnit '0' '0' (hexDigit (n / 16)) (hexDigit (n % 16)) = some n := by
  have hhigh := hexValue_hexDigit (n / 16) (by omega)
  have hlow := hexValue_hexDigit (n % 16) (by omega)
  have hzero : hexValue '0' = some 0 := by decide
  simp only [codeUnit, hhigh, hlow, hzero, Option.pure_def, Option.bind_eq_bind, Option.bind_some]
  congr 1
  omega

theorem stringBody_plain {c : Char} (hquote : c ≠ '"') (hslash : c ≠ '\\')
    (hprint : ¬ c.toNat < 0x20) (cs : List Char) :
    stringBody (c :: cs) = (stringBody cs).push c := by
  rw [stringBody.eq_def]
  split
  next h => cases h
  next h => exact absurd (List.cons.inj h).1 hquote
  next h => exact absurd (List.cons.inj h).1 hslash
  next h =>
    obtain ⟨rfl, rfl⟩ := List.cons.inj h
    rw [if_neg hprint]

theorem stringBody_codeUnit {c : Char} (h : c.toNat < 0x20) (cs : List Char) :
    stringBody ('\\' :: 'u' :: '0' :: '0' :: hexDigit (c.toNat / 16) :: hexDigit (c.toNat % 16) ::
      cs) = (stringBody cs).push c := by
  have hunit := codeUnit_hexDigit (n := c.toNat) (by omega)
  have htrailing : isTrailing c.toNat = false := by simp [isTrailing]; omega
  have hleading : isLeading c.toNat = false := by simp [isLeading]; omega
  rw [stringBody]
  simp only [hunit, htrailing, hleading, Bool.false_eq_true, if_false, Char.ofNat_toNat]

theorem stringBody_escaped (c : Char) (cs : List Char) :
    stringBody (escaped c ++ cs) = (stringBody cs).push c := by
  unfold escaped
  repeat' split
  all_goals first
    | (rename_i h; subst h; rfl)
    | exact stringBody_codeUnit ‹_› cs
    | exact stringBody_plain ‹_› ‹_› ‹_› cs

theorem stringBody_flatMap_escaped (s rest : List Char) :
    stringBody (s.flatMap escaped ++ '"' :: rest) = .ok (s, rest) := by
  induction s with
  | nil => rfl
  | cons c s ih =>
    rw [List.flatMap_cons, List.append_assoc, stringBody_escaped, ih]
    rfl

theorem firstToken_of_isSpace {c : Char} (h : isSpace c = true) (cs : List Char) :
    firstToken (c :: cs) = .stuck false .malformed := by
  simp only [isSpace, Bool.or_eq_true, decide_eq_true_eq] at h
  rcases h with ((rfl | rfl) | rfl) | rfl <;> rfl

theorem tokens_of_firstToken {cs rest : List Char} {t : Token}
    (h : firstToken cs = .read t rest) : tokens cs = t :: tokens rest := by
  have hspace : cs.dropWhile isSpace = cs := by
    cases cs with
    | nil => rfl
    | cons c cs =>
      refine List.dropWhile_cons_of_neg fun hc => ?_
      rw [firstToken_of_isSpace hc] at h
      cases h
  rw [tokens]
  split
  next hfirst => rw [hspace, h] at hfirst; cases hfirst
  next hfirst =>
    rw [hspace, h] at hfirst
    cases hfirst
    rfl
  next hfirst => rw [hspace, h] at hfirst; cases hfirst

theorem tokens_of_punctuation {c : Char} {t : Token} (h : punctuation c = some t)
    (rest : List Char) : tokens (c :: rest) = t :: tokens rest :=
  tokens_of_firstToken (by simp only [firstToken, h])

theorem firstToken_stringText (s : String) (rest : List Char) :
    firstToken (stringText s ++ rest) = .read (.string s) rest := by
  have hbody := stringBody_flatMap_escaped s.toList rest
  have htext : stringText s ++ rest = '"' :: (s.toList.flatMap escaped ++ '"' :: rest) := by
    simp [stringText]
  rw [htext]
  change Step.ofString (stringBody (s.toList.flatMap escaped ++ '"' :: rest)) = _
  rw [hbody, Step.ofString, String.ofList_toList]

theorem firstToken_nullText (rest : List Char) :
    firstToken (nullText ++ rest) = .read .null rest := rfl

theorem firstToken_boolText (b : Bool) (rest : List Char) :
    firstToken (boolText b ++ rest) = .read (.bool b) rest := by
  cases b <;> rfl

/-- Wherever a value may come, a text is read as a tree, for which up to `depth`
more containers are opened. -/
structure Prints (depth : Nat) (text : List Char) (t : Tree) : Prop where
  start : ∀ rest, EndsInteger rest →
    ∃ token ts, tokens (text ++ rest) = token :: ts ∧ token ≠ .endArray
  read : ∀ frames rest, frames.length + depth ≤ depthLimit → EndsInteger rest →
    run ⟨.value, frames⟩ (tokens (text ++ rest)) = run (place t frames) (tokens rest)

/-- A text of one token. -/
theorem prints_of_token {depth : Nat} {text : List Char} {t : Tree} {token : Token}
    (hfirst : ∀ rest, EndsInteger rest → firstToken (text ++ rest) = .read token rest)
    (hne : token ≠ .endArray) (hplace : ∀ frames, beginValue frames token = place t frames) :
    Prints depth text t where
  start rest hrest := ⟨token, _, tokens_of_firstToken (hfirst rest hrest), hne⟩
  read frames rest _ hrest := by
    rw [tokens_of_firstToken (hfirst rest hrest), ← hplace]
    rfl

theorem prints_null (depth : Nat) : Prints depth nullText .null :=
  prints_of_token (fun rest _ => firstToken_nullText rest) (by decide) fun _ => rfl

theorem prints_bool (depth : Nat) (b : Bool) : Prints depth (boolText b) (.bool b) :=
  prints_of_token (fun rest _ => firstToken_boolText b rest) (by simp) fun _ => rfl

theorem prints_string (depth : Nat) (s : String) : Prints depth (stringText s) (.string s) :=
  prints_of_token (fun rest _ => firstToken_stringText s rest) (by simp) fun _ => rfl

theorem prints_int {i : Int} (h : Word.holds 64 i = true) (depth : Nat) :
    Prints depth (intText i) (.number (.int i)) :=
  prints_of_token (fun _ hrest => firstToken_eq_int_iff.mpr ⟨rfl, hrest, h⟩) (by simp)
    fun _ => rfl

section

variable {depth : Nat} {frames : List Frame}

theorem endsInteger_elementsAfter (texts : List (List Char)) (rest : List Char) :
    EndsInteger (elementsAfter texts ++ rest) := by
  cases texts <;> exact .cons (by decide) _

theorem run_elementsAfter {texts : List (List Char)} {trees : List Tree}
    (h : List.Forall₂ (Prints depth) texts trees) (before : List Tree)
    (hframes : frames.length + 1 + depth ≤ depthLimit) (rest : List Char) :
    run ⟨.afterItem before, frames⟩ (tokens (elementsAfter texts ++ rest)) =
      run (place (.array (before.reverse ++ trees) .closed) frames) (tokens rest) := by
  induction h generalizing before with
  | nil =>
    rw [List.append_nil, elementsAfter, List.cons_append, tokens_of_punctuation rfl]
    rfl
  | @cons text t texts trees htext _ ih =>
    calc run ⟨.afterItem before, frames⟩ (tokens (elementsAfter (text :: texts) ++ rest))
      _ = run ⟨.value, .array before :: frames⟩
            (tokens (text ++ (elementsAfter texts ++ rest))) := by
        rw [elementsAfter, List.cons_append, List.cons_append, List.append_assoc,
          tokens_of_punctuation rfl]
        rfl
      _ = run ⟨.afterItem (t :: before), frames⟩ (tokens (elementsAfter texts ++ rest)) :=
        htext.read _ _ hframes (endsInteger_elementsAfter texts rest)
      _ = _ := by
        rw [ih, List.reverse_cons, List.append_assoc]
        rfl

/-- The first item of an array is read like any other value. -/
theorem run_firstItem {token : Token} (h : token ≠ .endArray) (ts : List Token) :
    run ⟨.firstItem, frames⟩ (token :: ts) = run ⟨.value, .array [] :: frames⟩ (token :: ts) := by
  have hstep : step ⟨.firstItem, frames⟩ token = step ⟨.value, .array [] :: frames⟩ token := by
    cases token <;> first | rfl | exact absurd rfl h
  rw [run, run, hstep]
  · nofun
  · nofun

theorem run_beginArray (hframes : frames.length < depthLimit) (ts : List Token) :
    run ⟨.value, frames⟩ (.beginArray :: ts) = run ⟨.firstItem, frames⟩ ts := by
  have hstep : step ⟨.value, frames⟩ .beginArray = ⟨.firstItem, frames⟩ := if_pos hframes
  rw [run, hstep]
  nofun

theorem Prints.array {texts : List (List Char)} {trees : List Tree}
    (h : List.Forall₂ (Prints depth) texts trees) :
    Prints (depth + 1) (arrayText texts) (.array trees .closed) where
  start rest _ := by
    cases texts <;> exact ⟨.beginArray, _, tokens_of_punctuation rfl _, by decide⟩
  read frames rest hframes hrest := by
    have hopen : frames.length < depthLimit := by omega
    have hinner : frames.length + 1 + depth ≤ depthLimit := by omega
    cases h with
    | nil =>
      rw [arrayText, List.cons_append, tokens_of_punctuation rfl, List.cons_append,
        tokens_of_punctuation rfl, run_beginArray hopen]
      rfl
    | @cons text t texts trees htext htexts =>
      have hend := endsInteger_elementsAfter texts rest
      obtain ⟨token, ts, htokens, hne⟩ := htext.start _ hend
      calc run ⟨.value, frames⟩ (tokens (arrayText (text :: texts) ++ rest))
        _ = run ⟨.firstItem, frames⟩ (tokens (text ++ (elementsAfter texts ++ rest))) := by
          rw [arrayText, List.cons_append, List.cons_append, List.append_assoc,
            tokens_of_punctuation rfl, run_beginArray hopen]
        _ = run ⟨.value, .array [] :: frames⟩ (tokens (text ++ (elementsAfter texts ++ rest))) := by
          rw [htokens, run_firstItem hne]
        _ = run ⟨.afterItem [t], frames⟩ (tokens (elementsAfter texts ++ rest)) :=
          htext.read _ _ hinner hend
        _ = _ := run_elementsAfter htexts [t] hinner rest

/-- The members of an object, each printed under its key. -/
def PrintsMember (depth : Nat) (field : String × List Char) (m : String × Tree) : Prop :=
  field.1 = m.1 ∧ Prints depth field.2 m.2

theorem endsInteger_fieldsAfter (fields : List (String × List Char)) (rest : List Char) :
    EndsInteger (fieldsAfter fields ++ rest) := by
  cases fields <;> exact .cons (by decide) _

theorem tokens_key (key : String) (cs : List Char) :
    tokens (stringText key ++ ':' :: cs) = .string key :: .colon :: tokens cs := by
  rw [tokens_of_firstToken (firstToken_stringText key (':' :: cs)), tokens_of_punctuation rfl]

theorem run_fieldsAfter {fields : List (String × List Char)} {members : List (String × Tree)}
    (h : List.Forall₂ (PrintsMember depth) fields members) (before : List (String × Tree))
    (hframes : frames.length + 1 + depth ≤ depthLimit) (rest : List Char) :
    run ⟨.afterMember before, frames⟩ (tokens (fieldsAfter fields ++ rest)) =
      run (place (.object (before.reverse ++ members) .closed) frames) (tokens rest) := by
  induction h generalizing before with
  | nil =>
    rw [List.append_nil, fieldsAfter, List.cons_append, tokens_of_punctuation rfl]
    rfl
  | @cons field member fields members hmember _ ih =>
    obtain ⟨key, text⟩ := field
    obtain ⟨_, t⟩ := member
    obtain ⟨rfl, htext⟩ := hmember
    calc run ⟨.afterMember before, frames⟩ (tokens (fieldsAfter ((key, text) :: fields) ++ rest))
      _ = run ⟨.value, .object before key :: frames⟩
            (tokens (text ++ (fieldsAfter fields ++ rest))) := by
        rw [fieldsAfter]
        simp only [List.cons_append, List.append_assoc]
        rw [tokens_of_punctuation rfl, tokens_key]
        rfl
      _ = run ⟨.afterMember ((key, t) :: before), frames⟩ (tokens (fieldsAfter fields ++ rest)) :=
        htext.read _ _ hframes (endsInteger_fieldsAfter fields rest)
      _ = _ := by
        rw [ih, List.reverse_cons, List.append_assoc]
        rfl

theorem run_beginObject (hframes : frames.length < depthLimit) (ts : List Token) :
    run ⟨.value, frames⟩ (.beginObject :: ts) = run ⟨.firstKey, frames⟩ ts := by
  have hstep : step ⟨.value, frames⟩ .beginObject = ⟨.firstKey, frames⟩ := if_pos hframes
  rw [run, hstep]
  nofun

theorem Prints.object {fields : List (String × List Char)} {members : List (String × Tree)}
    (h : List.Forall₂ (PrintsMember depth) fields members) :
    Prints (depth + 1) (objectText fields) (.object members .closed) where
  start rest _ := by
    cases fields <;> exact ⟨.beginObject, _, tokens_of_punctuation rfl _, by decide⟩
  read frames rest hframes hrest := by
    have hopen : frames.length < depthLimit := by omega
    have hinner : frames.length + 1 + depth ≤ depthLimit := by omega
    cases h with
    | nil =>
      rw [objectText, List.cons_append, tokens_of_punctuation rfl, List.cons_append,
        tokens_of_punctuation rfl, run_beginObject hopen]
      rfl
    | @cons field member fields members hmember hmembers =>
      obtain ⟨key, text⟩ := field
      obtain ⟨_, t⟩ := member
      obtain ⟨rfl, htext⟩ := hmember
      calc run ⟨.value, frames⟩ (tokens (objectText ((key, text) :: fields) ++ rest))
        _ = run ⟨.value, .object [] key :: frames⟩
              (tokens (text ++ (fieldsAfter fields ++ rest))) := by
          rw [objectText]
          simp only [List.cons_append, List.append_assoc]
          rw [tokens_of_punctuation rfl, run_beginObject hopen, tokens_key]
          rfl
        _ = run ⟨.afterMember [(key, t)], frames⟩ (tokens (fieldsAfter fields ++ rest)) :=
          htext.read _ _ hinner (endsInteger_fieldsAfter fields rest)
        _ = _ := run_fieldsAfter hmembers [(key, t)] hinner rest

end

/-- A text that is printed in full is the document of its tree. -/
theorem Prints.ofText {depth : Nat} {text : List Char} {t : Tree} (h : Prints depth text t)
    (hdepth : depth ≤ depthLimit) : Document.ofText (String.ofList text) = ⟨t, false⟩ := by
  have hread := h.read [] [] (by simpa using hdepth) (by simp [EndsInteger])
  rw [List.append_nil] at hread
  have hend : tokens [] = [] := by
    rw [tokens]
    rfl
  simp only [Document.ofText, String.toList_ofList, hread, hend, place, run]
  rfl

end RecordSearch.Json
