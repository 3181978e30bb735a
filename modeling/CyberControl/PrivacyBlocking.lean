import CyberControl.ClaimExtraction
import CyberControl.PrivacyDetector

/-! # Completeness of the privacy block

When the detector blocks a candidate. -/

namespace CyberControl.Privacy

open ClaimExtraction (memberPointer elementPointer)

/-! ### Leaves and keys -/

/-- A string of a content and the keys on the way to it. -/
inductive LeafAt : Json → List String → String → Prop
  | string (text : String) : LeafAt (.string text) [] text
  | element {elements : List Json} {e : Json} {keys : List String} {text : String}
      (he : e ∈ elements) (h : LeafAt e keys text) : LeafAt (.array elements) keys text
  | member {members : List (String × Json)} {key : String} {v : Json} {keys : List String}
      {text : String} (hv : (key, v) ∈ members) (h : LeafAt v keys text) :
      LeafAt (.object members) (key :: keys) text

/-- The key that the walk hands down to a leaf. -/
def keyBelow (key : Option String) (keys : List String) : Option String := keys.getLast?.or key

theorem keyBelow_cons (key : Option String) (k : String) (keys : List String) :
    keyBelow key (k :: keys) = keyBelow (some k) keys := by
  unfold keyBelow
  rw [List.getLast?_cons]
  cases keys.getLast? <;> rfl

variable {text : String} {keys : List String}

mutual

variable {leaf : Leaf}

theorem leafAt_of_walk {path : List Char} {key : Option String}
    (htext : leaf.value = .string text) : (v : Json) → leaf ∈ walk path key v →
      ∃ keys, LeafAt v keys text ∧ leaf.key = keyBelow key keys
  | .object members, hleaf => by
    obtain ⟨k, v, hv, keys, h, hkey⟩ := leafAt_of_walkMembers htext members hleaf
    exact ⟨k :: keys, .member hv h, by rw [keyBelow_cons]; exact hkey⟩
  | .array elements, hleaf => by
    obtain ⟨e, he, keys, h, hkey⟩ := leafAt_of_walkElements htext elements hleaf
    exact ⟨keys, .element he h, hkey⟩
  | .string s, hleaf => by
    obtain rfl := List.mem_singleton.mp hleaf
    cases htext
    exact ⟨[], .string _, rfl⟩
  | .null, hleaf => by
    obtain rfl := List.mem_singleton.mp hleaf
    cases htext
  | .bool b, hleaf => by
    obtain rfl := List.mem_singleton.mp hleaf
    cases htext
  | .number n, hleaf => by
    obtain rfl := List.mem_singleton.mp hleaf
    cases htext
  | .nonFinite, hleaf => by
    obtain rfl := List.mem_singleton.mp hleaf
    cases htext

theorem leafAt_of_walkMembers {path : List Char}
    (htext : leaf.value = .string text) : (members : List (String × Json)) →
      leaf ∈ walkMembers path members → ∃ k v, (k, v) ∈ members ∧
        ∃ keys, LeafAt v keys text ∧ leaf.key = keyBelow (some k) keys
  | [], hleaf => by cases hleaf
  | (k, v) :: members, hleaf => by
    rw [walkMembers] at hleaf
    rcases List.mem_append.mp hleaf with hleaf | hleaf
    · obtain ⟨keys, h, hkey⟩ := leafAt_of_walk htext v hleaf
      exact ⟨k, v, List.mem_cons_self .., keys, h, hkey⟩
    · obtain ⟨k', v', hv, rest⟩ := leafAt_of_walkMembers htext members hleaf
      exact ⟨k', v', List.mem_cons_of_mem _ hv, rest⟩

theorem leafAt_of_walkElements {path : List Char} {key : Option String} {index : ℕ}
    (htext : leaf.value = .string text) : (elements : List Json) →
      leaf ∈ walkElements path key index elements → ∃ e ∈ elements,
        ∃ keys, LeafAt e keys text ∧ leaf.key = keyBelow key keys
  | [], hleaf => by cases hleaf
  | v :: elements, hleaf => by
    rw [walkElements] at hleaf
    rcases List.mem_append.mp hleaf with hleaf | hleaf
    · obtain ⟨keys, h, hkey⟩ := leafAt_of_walk htext v hleaf
      exact ⟨v, List.mem_cons_self .., keys, h, hkey⟩
    · obtain ⟨e, he, rest⟩ := leafAt_of_walkElements htext elements hleaf
      exact ⟨e, List.mem_cons_of_mem _ he, rest⟩

end

/-! ### The strings of a candidate -/

/-- Some block of the candidate has the string under these keys. -/
def Candidate.Has (candidate : Candidate) (keys : List String) (text : String) : Prop :=
  ∃ block ∈ candidate.blocks, LeafAt (.object block.content) keys text

theorem has_of_visit {candidate : Candidate} {visit : Visit}
    (hvisit : visit ∈ candidate.visits) (htext : visit.leaf.value = .string text) :
    ∃ keys, candidate.Has keys text ∧ visit.leaf.key = keys.getLast? := by
  obtain ⟨block, hblock, hmap⟩ := List.mem_flatMap.mp hvisit
  obtain ⟨leaf, hleaf, rfl⟩ := List.mem_map.mp hmap
  obtain ⟨keys, h, hkey⟩ := leafAt_of_walk htext _ hleaf
  exact ⟨keys, ⟨block, hblock, h⟩, by rw [hkey, keyBelow, Option.or_none]⟩

/-! ### The scan -/

def PIIMatch.Blocks (m : PIIMatch) : Prop := m.action = .block

def PIIType.blocking (piiType : PIIType) : Bool := action piiType = .block

namespace Detector
variable {detector : Detector}

/-- Whether a string under a key blocks on its own: its key names a type that blocks and its first
characters are not blank, or its key names no type and a national id is in its first characters. -/
def blocks (detector : Detector) (key : Option String) (value : String) : Bool :=
  match (detector.keyType key).filter fun _ => ¬ detector.db.Blank (detector.cut value) with
  | some entry => entry.piiType.blocking
  | none => ((nationalIdPattern detector.db).search (detector.cut value)).isSome

/-- A match of the detector has the action of its type. -/
def Formed (m : PIIMatch) : Prop := m.action = action m.piiType

variable {m : PIIMatch}

theorem scanValue_formed {blockId : String} {path : List Char} {key : Option String} {value : String}
    (h : m ∈ detector.scanValue blockId path key value) : Formed m := by
  rw [scanValue] at h
  cases hkey : (detector.keyType key).filter fun _ => ¬ detector.db.Blank (detector.cut value) with
  | some entry =>
    simp only [hkey] at h
    rw [List.mem_singleton.mp h]
    rfl
  | none =>
    simp only [hkey] at h
    obtain ⟨⟨piiType, pattern, reasonCode⟩, -, hfound⟩ := List.mem_filterMap.mp h
    obtain ⟨found, -, rfl⟩ := Option.map_eq_some_iff.mp hfound
    rfl

theorem scanValue_blocks (blockId : String) (path : List Char) (key : Option String)
    (value : String) :
    (detector.blocks key value → ∃ m rest,
        detector.scanValue blockId path key value = m :: rest ∧ m.Blocks) ∧
      ((∃ m ∈ detector.scanValue blockId path key value, m.Blocks) → detector.blocks key value) := by
  rw [scanValue, blocks]
  cases hkey : (detector.keyType key).filter fun _ => ¬ detector.db.Blank (detector.cut value) with
  | some entry =>
    constructor
    · intro hblocking
      have hblocks : action entry.piiType = .block := of_decide_eq_true hblocking
      exact ⟨_, [], rfl, hblocks⟩
    · rintro ⟨m, hm, hblocks⟩
      rw [List.mem_singleton.mp hm] at hblocks
      exact decide_eq_true (show action entry.piiType = .block from hblocks)
  | none =>
    constructor
    · intro hfound
      obtain ⟨found, hid⟩ := Option.isSome_iff_exists.mp hfound
      have hfirst : ((nationalIdPattern detector.db).search (detector.cut value)).map (fun found =>
          detector.matchOf blockId path .nationalId found "C10_NATIONAL_ID_PATTERN" false) =
            some (detector.matchOf blockId path .nationalId found "C10_NATIONAL_ID_PATTERN"
              false) := by
        rw [hid, Option.map_some]
      exact ⟨_, _, List.filterMap_cons_some hfirst, rfl⟩
    · rintro ⟨m, hm, hblocks⟩
      obtain ⟨⟨piiType, pattern, reasonCode⟩, hmem, hfound⟩ := List.mem_filterMap.mp hm
      obtain ⟨found, hsearch, rfl⟩ := Option.map_eq_some_iff.mp hfound
      have hblocks : action piiType = .block := hblocks
      simp only [patterns, List.mem_cons, List.not_mem_nil, or_false, Prod.mk.injEq] at hmem
      rcases hmem with ⟨rfl, rfl, -⟩ | ⟨rfl, -⟩ | ⟨rfl, -⟩
      · exact Option.isSome_iff_exists.mpr ⟨found, hsearch⟩
      · cases hblocks
      · cases hblocks

/-! ### Duplicates -/

/-- The same pointer, type and digest. -/
def sameKey (m k : PIIMatch) : Bool :=
  k.jsonPointer = m.jsonPointer ∧ k.piiType = m.piiType ∧
    k.originalValueSha256 = m.originalValueSha256

/-- One step of `unique`. -/
def keep (kept : List PIIMatch) (m : PIIMatch) : List PIIMatch :=
  if kept.any (sameKey m) then kept else kept ++ [m]

theorem foldl_keep (collected kept : List PIIMatch) :
    ∃ more, collected.foldl keep kept = kept ++ more ∧ more.length ≤ collected.length ∧
      (∀ m ∈ more, m ∈ collected) ∧
      ∀ m ∈ collected, ∃ k ∈ kept ++ more, k.piiType = m.piiType := by
  induction collected generalizing kept with
  | nil => exact ⟨[], by simp, by simp, by simp, by simp⟩
  | cons m collected ih =>
    obtain ⟨more, hfold, hlength, hsubset, hcovers⟩ := ih (keep kept m)
    rw [List.foldl_cons, hfold]
    by_cases hseen : kept.any (sameKey m)
    · rw [keep, if_pos hseen] at hcovers ⊢
      refine ⟨more, rfl, by rw [List.length_cons]; omega,
        fun k hk => List.mem_cons_of_mem _ (hsubset k hk), List.forall_mem_cons.mpr ⟨?_, hcovers⟩⟩
      obtain ⟨k, hk, hsame⟩ := List.any_eq_true.mp hseen
      exact ⟨k, List.mem_append_left _ hk, (of_decide_eq_true hsame).2.1⟩
    · rw [keep, if_neg hseen] at hcovers ⊢
      rw [List.append_assoc] at hcovers ⊢
      refine ⟨m :: more, rfl, by rw [List.length_cons, List.length_cons]; omega, ?_,
        List.forall_mem_cons.mpr ⟨⟨m, ?_, rfl⟩, hcovers⟩⟩
      · exact List.forall_mem_cons.mpr ⟨List.mem_cons_self ..,
          fun k hk => List.mem_cons_of_mem _ (hsubset k hk)⟩
      · exact List.mem_append_right _ (List.mem_cons_self ..)

variable {collected : List PIIMatch}

theorem unique_covers {n : ℕ} (h : m ∈ collected.take n) :
    ∃ k ∈ (unique collected).take n, k.piiType = m.piiType := by
  obtain ⟨more, hfold, hlength, -, hcovers⟩ := foldl_keep (collected.take n) []
  obtain ⟨rest, hrest, -⟩ := foldl_keep (collected.drop n) ((collected.take n).foldl keep [])
  obtain ⟨k, hk, htype⟩ := hcovers m h
  refine ⟨k, ?_, htype⟩
  have hunique : unique collected = more ++ rest := by
    show collected.foldl keep [] = _
    rw [← List.take_append_drop n collected, List.foldl_append, hrest, hfold, List.nil_append]
  rw [List.length_take] at hlength
  rw [hunique, List.take_append, List.take_of_length_le (by omega)]
  exact List.mem_append_left _ hk

/-! ### The loop -/

/-- The string of a visit blocks on its own. -/
def visitBlocks (detector : Detector) (visit : Visit) : Bool :=
  match visit.leaf.value with
  | .string value => detector.blocks visit.leaf.key value
  | _ => false

theorem scanVisit_formed {visit : Visit} (h : m ∈ detector.scanVisit visit) :
    Formed m := by
  rw [scanVisit] at h
  cases hvalue : visit.leaf.value with
  | string value =>
    rw [hvalue] at h
    exact scanValue_formed h
  | null | bool | number | nonFinite | array | object =>
    rw [hvalue] at h
    cases h

theorem scanVisit_blocks (visit : Visit) :
    (detector.visitBlocks visit → ∃ m rest, detector.scanVisit visit = m :: rest ∧ m.Blocks) ∧
      ((∃ m ∈ detector.scanVisit visit, m.Blocks) → detector.visitBlocks visit) := by
  rw [scanVisit, visitBlocks]
  cases visit.leaf.value with
  | string value => exact scanValue_blocks _ _ _ _
  | null | bool | number | nonFinite | array | object =>
    refine ⟨nofun, ?_⟩
    rintro ⟨m, hm, -⟩
    cases hm

/-- The number of matches of the visits. -/
def matchCount (detector : Detector) (visits : List Visit) : ℕ :=
  (visits.flatMap detector.scanVisit).length

/-- A string that blocks is looked at while the limit of matches is not reached; `n` matches are
there at the start. -/
def ReachedFrom (detector : Detector) (n : ℕ) (visits : List Visit) : Prop :=
  ∃ before visit after, visits = before ++ visit :: after ∧
    n + detector.matchCount before < detector.maxMatches ∧ detector.visitBlocks visit

theorem reachedFrom_cons {n : ℕ} {visit : Visit} {visits : List Visit} :
    detector.ReachedFrom n (visit :: visits) ↔ n < detector.maxMatches ∧
      (detector.visitBlocks visit ∨
        detector.ReachedFrom (n + (detector.scanVisit visit).length) visits) := by
  constructor
  · rintro ⟨before, v, after, hsplit, hcount, hblocks⟩
    cases before with
    | nil =>
      rw [List.nil_append, List.cons.injEq] at hsplit
      rw [hsplit.1]
      exact ⟨hcount, Or.inl hblocks⟩
    | cons u before =>
      rw [List.cons_append, List.cons.injEq] at hsplit
      obtain ⟨rfl, hsplit⟩ := hsplit
      rw [matchCount, List.flatMap_cons, List.length_append] at hcount
      refine ⟨by omega, Or.inr ⟨before, v, after, hsplit, ?_, hblocks⟩⟩
      rw [matchCount]
      omega
  · rintro ⟨hroom, hblocks | ⟨before, v, after, rfl, hcount, hblocks⟩⟩
    · exact ⟨[], visit, visits, rfl, hroom, hblocks⟩
    · refine ⟨visit :: before, v, after, rfl, ?_, hblocks⟩
      rw [matchCount] at hcount
      rw [matchCount, List.flatMap_cons, List.length_append]
      omega

/-- What the loop keeps of its matches: they are formed, and when one blocks, one of those that stay
does. -/
structure Collected (detector : Detector) (collected : List PIIMatch) : Prop where
  formed : ∀ m ∈ collected, Formed m
  first : (∃ m ∈ collected, m.Blocks) → ∃ m ∈ collected.take detector.maxMatches, m.Blocks

theorem Collected.visit (h : detector.Collected collected)
    (hroom : collected.length < detector.maxMatches) (visit : Visit) :
    detector.Collected (collected ++ detector.scanVisit visit) where
  formed := by
    intro m hm
    rcases List.mem_append.mp hm with hm | hm
    · exact h.formed m hm
    · exact scanVisit_formed hm
  first := by
    rintro ⟨m, hm, hblocks⟩
    rw [List.take_append]
    rcases List.mem_append.mp hm with hm | hm
    · obtain ⟨k, hk, hkblocks⟩ := h.first ⟨m, hm, hblocks⟩
      exact ⟨k, List.mem_append_left _ hk, hkblocks⟩
    · obtain ⟨k, rest, hscan, hkblocks⟩ := (scanVisit_blocks visit).1
        ((scanVisit_blocks visit).2 ⟨m, hm, hblocks⟩)
      refine ⟨k, List.mem_append_right _ ?_, hkblocks⟩
      obtain ⟨n, hn⟩ : ∃ n, detector.maxMatches - collected.length = n + 1 :=
        ⟨detector.maxMatches - collected.length - 1, by omega⟩
      rw [hscan, hn, List.take_succ_cons]
      exact List.mem_cons_self ..

theorem mem_unique (h : m ∈ unique collected) :
    m ∈ collected := by
  obtain ⟨more, hfold, -, hsubset, -⟩ := foldl_keep collected []
  have hunique : unique collected = more := by
    show collected.foldl keep [] = _
    rw [hfold, List.nil_append]
  rw [hunique] at h
  exact hsubset m h

/-- **The loop blocks exactly when it has a match that blocks or reaches a string that does.** -/
theorem scanFrom_blocks {visits : List Visit}
    (h : detector.Collected collected) :
    (∃ m ∈ detector.scanFrom collected visits, m.Blocks) ↔
      (∃ m ∈ collected, m.Blocks) ∨ detector.ReachedFrom collected.length visits := by
  induction visits generalizing collected with
  | nil =>
    rw [scanFrom]
    constructor
    · rintro ⟨m, hm, hblocks⟩
      exact Or.inl ⟨m, mem_unique (List.mem_of_mem_take hm), hblocks⟩
    · rintro (hblocks | ⟨before, v, after, hsplit, -⟩)
      · obtain ⟨m, hm, hmblocks⟩ := h.first hblocks
        obtain ⟨k, hk, htype⟩ := unique_covers hm
        have hform : k.action = action k.piiType :=
          h.formed k (mem_unique (List.mem_of_mem_take hk))
        have hmform : m.action = action m.piiType := h.formed m (List.mem_of_mem_take hm)
        exact ⟨k, hk, by rw [PIIMatch.Blocks, hform, htype, ← hmform]; exact hmblocks⟩
      · simp at hsplit
  | cons visit visits ih =>
    rw [scanFrom, reachedFrom_cons]
    split_ifs with hfull
    · refine ⟨Or.inl, ?_⟩
      rintro (hblocks | ⟨hroom, -⟩)
      · exact hblocks
      · omega
    · have hroom : collected.length < detector.maxMatches := by omega
      rw [ih (h.visit hroom visit), List.length_append]
      constructor
      · rintro (⟨m, hm, hblocks⟩ | hreached)
        · rcases List.mem_append.mp hm with hm | hm
          · exact Or.inl ⟨m, hm, hblocks⟩
          · exact Or.inr ⟨hroom, Or.inl ((scanVisit_blocks visit).2 ⟨m, hm, hblocks⟩)⟩
        · exact Or.inr ⟨hroom, Or.inr hreached⟩
      · rintro (⟨m, hm, hblocks⟩ | ⟨-, hblocks | hreached⟩)
        · exact Or.inl ⟨m, List.mem_append_left _ hm, hblocks⟩
        · obtain ⟨m, rest, hscan, hmblocks⟩ := (scanVisit_blocks visit).1 hblocks
          refine Or.inl ⟨m, List.mem_append_right _ ?_, hmblocks⟩
          rw [hscan]
          exact List.mem_cons_self ..
        · exact Or.inr hreached

/-- The scan looks at a string that blocks. -/
def Reached (detector : Detector) (candidate : Candidate) : Prop :=
  detector.ReachedFrom 0 candidate.visits

theorem scan_blocks_iff (candidate : Candidate) :
    (∃ m ∈ detector.scan candidate, m.Blocks) ↔ detector.Reached candidate := by
  rw [scan, scanFrom_blocks ⟨List.forall_mem_nil _, ?_⟩]
  · exact or_iff_right (by rintro ⟨m, hm, -⟩; cases hm)
  · rintro ⟨m, hm, -⟩
    cases hm

theorem verdict_iff (candidate : Candidate) :
    detector.verdict candidate = .UNSAFE ↔ detector.Reached candidate := by
  rw [← scan_blocks_iff, verdict, privacyVerdict]
  have hany : ((detector.scan candidate).map finding).any (·.nonWaivable) ↔
      ∃ m ∈ detector.scan candidate, m.Blocks := by
    rw [List.any_map, List.any_eq_true]
    exact exists_congr fun m => and_congr_right fun _ => decide_eq_true_iff
  rw [← hany]
  split_ifs with hblocks hnone
  · exact iff_of_true rfl hblocks
  · exact iff_of_false nofun hblocks
  · exact iff_of_false nofun hblocks

/-! ### Completeness -/

def blockingKey (detector : Detector) (key : String) : Bool :=
  (detector.keyType (some key)).any fun entry => entry.piiType.blocking

/-- The string contains a national id, or lies under a key that blocks and is not blank. -/
def SensitiveLeaf (detector : Detector) (keys : List String) (text : String) : Prop :=
  (nationalIdPattern detector.db).MatchesIn text.toList ∨
    (∃ key ∈ keys, detector.blockingKey key) ∧ ¬ detector.db.Blank text.toList

/-- A string of the candidate is sensitive. -/
def Sensitive (detector : Detector) (candidate : Candidate) : Prop :=
  ∃ keys text, candidate.Has keys text ∧ detector.SensitiveLeaf keys text

/-- A string of the candidate is sensitive or blocks on its own. -/
def Alarming (detector : Detector) (candidate : Candidate) : Prop :=
  ∃ keys text, candidate.Has keys text ∧
    (detector.SensitiveLeaf keys text ∨ detector.blocks keys.getLast? text)

end Detector

/-- All strings of `c` are strings of `d`, under the same keys. -/
def Candidate.Within (c d : Candidate) : Prop := ∀ keys text, c.Has keys text → d.Has keys text

theorem Candidate.Within.refl (c : Candidate) : c.Within c := fun _ _ h => h

/-- The content with one string. -/
def nest : List String → String → Json
  | [], text => .string text
  | key :: keys, text => .object [(key, nest keys text)]

theorem walk_nest (path : List Char) (key : Option String) (keys : List String) (text : String) :
    ∃ path', walk path key (nest keys text) = [⟨path', keyBelow key keys, .string text⟩] := by
  induction keys generalizing path key with
  | nil => exact ⟨path, rfl⟩
  | cons k keys ih =>
    obtain ⟨path', hwalk⟩ := ih (memberPointer path k.toList) (some k)
    refine ⟨path', ?_⟩
    rw [nest, walk, walkMembers, walkMembers, hwalk, keyBelow_cons, List.append_nil]

theorem leafAt_nest {keys keys' : List String} {text text' : String}
    (h : LeafAt (nest keys text) keys' text') : keys' = keys ∧ text' = text := by
  induction keys generalizing keys' with
  | nil =>
    cases h
    exact ⟨rfl, rfl⟩
  | cons k keys ih =>
    rw [nest] at h
    cases h with
    | member hv h =>
      obtain ⟨rfl, rfl⟩ := Prod.mk.inj (List.mem_singleton.mp hv)
      obtain ⟨rfl, rfl⟩ := ih h
      exact ⟨rfl, rfl⟩

/-- The candidate with one string. -/
def single (key : String) (keys : List String) (text : String) : Candidate :=
  ⟨[⟨"only", 0, [(key, nest keys text)]⟩]⟩

theorem has_single {key : String} {keys keys' : List String} {text text' : String}
    (h : (single key keys text).Has keys' text') : keys' = key :: keys ∧ text' = text := by
  obtain ⟨block, hblock, h⟩ := h
  rw [List.mem_singleton.mp hblock] at h
  exact @leafAt_nest (key :: keys) keys' text text' h

namespace Detector
variable {detector : Detector}

theorem reached_single {key : String}
    (h : detector.blocks (key :: keys).getLast? text) : detector.Reached (single key keys text) := by
  obtain ⟨path, hwalk⟩ := walk_nest
    ("/blocks/".toList ++ Nat.toDigits 10 0 ++ "/content".toList) none (key :: keys) text
  rw [keyBelow, Option.or_none] at hwalk
  refine ⟨[], ⟨"only", path, (key :: keys).getLast?, .string text⟩, [], ?_, ?_, h⟩
  · show List.map (Visit.mk "only") (walk _ none (nest (key :: keys) text)) ++ [] = _
    rw [hwalk]
    rfl
  · have hbounds := detector.maxMatches_bounds
    rw [matchCount, List.flatMap_nil, List.length_nil]
    omega

/-- **Exactly when blocking is complete and monotone.**  A candidate is blocked whenever a part of it
is sensitive or blocked, exactly when the scan reaches a string that blocks in case some string of
it is sensitive or blocks on its own. -/
theorem blocking_complete_iff (detector : Detector) (d : Candidate) :
    (∀ c : Candidate, c.Within d → detector.Sensitive c ∨ detector.verdict c = .UNSAFE →
        (∃ m ∈ detector.scan d, m.action = .block) ∧ detector.verdict d = .UNSAFE) ↔
      (detector.Alarming d → detector.Reached d) := by
  constructor
  · rintro h ⟨keys, text, hhas, hsensitive | hblocks⟩
    · have hpart := h d (Candidate.Within.refl d) (Or.inl ⟨keys, text, hhas, hsensitive⟩)
      exact (verdict_iff d).mp hpart.2
    · obtain ⟨block, hblock, hleaf⟩ := hhas
      cases hleaf with
      | @member _ key v keys _ hv hleaf =>
        refine (verdict_iff d).mp (h (single key keys text) ?_ (Or.inr ?_)).2
        · intro keys' text' hhas'
          obtain ⟨rfl, rfl⟩ := has_single hhas'
          exact ⟨block, hblock, .member hv hleaf⟩
        · exact (verdict_iff _).mpr (reached_single hblocks)
  · intro h c hwithin hc
    have hreached : detector.Reached d := by
      refine h ?_
      rcases hc with ⟨keys, text, hhas, hsensitive⟩ | hunsafe
      · exact ⟨keys, text, hwithin keys text hhas, Or.inl hsensitive⟩
      · obtain ⟨before, visit, after, hvisits, -, hblocks⟩ := (verdict_iff c).mp hunsafe
        have hvisit : visit ∈ c.visits := by
          rw [hvisits]
          exact List.mem_append_right _ (List.mem_cons_self ..)
        rw [visitBlocks] at hblocks
        cases hvalue : visit.leaf.value with
        | string text =>
          rw [hvalue] at hblocks
          obtain ⟨keys, hhas, hkey⟩ := has_of_visit hvisit hvalue
          rw [hkey] at hblocks
          exact ⟨keys, text, hwithin keys text hhas, Or.inr hblocks⟩
        | null | bool | number | nonFinite | array | object =>
          rw [hvalue] at hblocks
          cases hblocks
    exact ⟨(scan_blocks_iff d).mpr hreached, (verdict_iff d).mpr hreached⟩

end Detector

/-- The default limits, with a digest that tells nothing. -/
def sampleDetector : Detector where
  db := Unicode.Standard.asciiOnly
  canonicalSha256 _ := "0"
  maxMatches := 256
  maxStringLength := 32768
  maxMatches_bounds := by decide
  maxStringLength_bounds := by decide

/-- A block that gives a national id as a name. -/
def namedCandidate : Candidate := ⟨[⟨"block-1", 0, [("name", .string "110101199003071234")]⟩]⟩

/-- **A national id under the key `name` is only redacted.** -/
theorem national_id_under_name :
    sampleDetector.Sensitive namedCandidate ∧
      sampleDetector.verdict namedCandidate = .PARTIALLY_SUPPORTED := by
  refine ⟨⟨["name"], "110101199003071234", ?_, Or.inl ?_⟩, ?_⟩
  · exact ⟨_, List.mem_singleton_self _, .member (List.mem_singleton_self _) (.string _)⟩
  · exact (Pattern.search_isSome _ _).mp (by decide +kernel)
  · decide +kernel

end CyberControl.Privacy
