import HostLisp.Proofs.Spelling

/-!
# Where tokens stand

The tokens of a source, the blanks between them, and nothing else make up the source: nothing is
lost, nothing is read twice, and each token records the bytes and the line where it stands.

This is shown twice.  First over characters, where `Tiles` takes a source apart into blanks and
tokens and the places are those that `Position.after` counts.  A character can only do one of a few
things to a scanner (`Scanner.Move`), and each of them leaves a tiling of what is still to come that
extends to one of what was there before (`Scanner.Move.lossless`); so the tokens of a source tile it
(`Scanner.scan_tiles`).  Then over bytes, where `Tiled` says what that means to a reader who has
only the encoded source and the numbers in the tokens.  In between stands what places count:
`Position.offset_after` and `Position.line_after`.
-/

namespace HostLisp

open Text

/-! ## Sources taken apart -/

/-- The token stands at `p`, takes up `mid` of the source, and has `post` after it. -/
structure Token.Covers (t : Token) (p : Position) (mid post : List Char) : Prop where
  start : t.start = p.offset
  line : t.line = p.line
  stop : t.stop = (p.after mid).offset
  text : t.isFinal = false → mid ≠ [] ∧ t.text = String.ofList mid
  atEnd : t.kind = .eof → mid = [] ∧ post = []

/-- Characters from a place on, taken apart into tokens with blanks before them. -/
inductive Tiles : Position → List Char → List Token → Prop where
  | last {p : Position} {gap mid post : List Char} {t : Token} :
    (∀ c ∈ gap, isBlank c = true) → t.isFinal = true → t.Covers (p.after gap) mid post →
      Tiles p (gap ++ (mid ++ post)) [t]
  | cons {p : Position} {gap mid post : List Char} {t : Token} {ts : List Token} :
    (∀ c ∈ gap, isBlank c = true) → t.isFinal = false → t.Covers (p.after gap) mid post →
      Tiles (p.after (gap ++ mid)) post ts → Tiles p (gap ++ (mid ++ post)) (t :: ts)

theorem Tiles.last_here {p : Position} {mid post : List Char} {t : Token}
    (hfinal : t.isFinal = true) (h : t.Covers p mid post) : Tiles p (mid ++ post) [t] :=
  (.last (by simp) hfinal h : Tiles p ([] ++ (mid ++ post)) [t])

theorem Tiles.cons_here {p : Position} {mid post : List Char} {t : Token} {ts : List Token}
    (hfinal : t.isFinal = false) (h : t.Covers p mid post) (hts : Tiles (p.after mid) post ts) :
    Tiles p (mid ++ post) (t :: ts) :=
  (.cons (by simp) hfinal h hts : Tiles p ([] ++ (mid ++ post)) (t :: ts))

/-- A blank in front goes with the other blanks before the first token. -/
theorem Tiles.blank {p : Position} {c : Char} {cs : List Char} {ts : List Token}
    (hc : isBlank c = true) (h : Tiles (p.advance c) cs ts) : Tiles p (c :: cs) ts := by
  generalize hq : p.advance c = q at h
  cases h with
  | @last _ gap mid post t hgap hfinal hcovers =>
    subst hq
    refine (.last ?_ hfinal hcovers : Tiles p ((c :: gap) ++ (mid ++ post)) [t])
    simpa [hc] using hgap
  | @cons _ gap mid post t ts hgap hfinal hcovers hts =>
    subst hq
    refine (.cons ?_ hfinal hcovers hts : Tiles p ((c :: gap) ++ (mid ++ post)) (t :: ts))
    simpa [hc] using hgap

/-! ## One character -/

/-- Something has been read of a token, unless none has begun or a head is awaited. -/
theorem Shape.Holds.ne_nil {shape : Shape} {cs : List Char} (h : shape.Holds cs)
    (hgap : shape ≠ .gap) (hhead : shape ≠ .head) : cs ≠ [] := by
  cases shape with
  | gap => exact absurd rfl hgap
  | head => exact absurd rfl hhead
  | sign =>
    obtain ⟨c, rfl, -⟩ := h
    simp
  | number digits =>
    obtain ⟨sign, rest, rfl, -, hspell⟩ := h
    cases digits with
    | leadingZero => simp [show rest = ['0'] from hspell]
    | decimal => simp [hspell.1]
    | hexadecimal =>
      obtain ⟨mark, digits, rfl, -⟩ := hspell
      simp
  | quoted delimiter escaped =>
    obtain ⟨-, body, -, rfl⟩ := h
    simp
  | word => exact h.1.nonempty
  | halted => exact h.elim

namespace Scanner

/-- The scanner has read up to `p`. -/
def At (s : Scanner) (p : Position) : Prop := p = s.start.after s.read.reverse

/-- What `c`, which stands at `p`, can do to a scanner. -/
inductive Move (s : Scanner) (p : Position) (c : Char) : List Token × Scanner → Prop where
  /-- It extends the token being read. -/
  | extend {shape : Shape} : shape ≠ .halted → Move s p c ([], s.push shape c)
  /-- It is passed over before a token. -/
  | skip {shape : Shape} : s.read = [] → shape ≠ .halted → isBlank c = true →
    Move s p c ([], ⟨shape, s.read, p.advance c⟩)
  /-- It begins something. -/
  | start : s.read = [] → Move s p c (begin p c)
  /-- It ends the token being read, and begins something. -/
  | finish {kind : TokenKind} : s.read ≠ [] → kind ≠ .eof ∧ kind ≠ .error →
    Move s p c (s.finishThen kind p c)
  /-- It ends the token being read and belongs to it. -/
  | close {shape : Shape} :
    Move s p c ([(s.push shape c).emit .string (p.advance c)], between (p.advance c))
  /-- The source is refused before it. -/
  | refuse {e : ScanError} : Move s p c ([s.refuse e p], s.halt)
  /-- The source is refused because of it. -/
  | refuseAt {e : ScanError} : Move s p c ([s.refuse e (p.advance c)], s.halt)

theorem Reads.read_ne_nil {s : Scanner} (h : s.Reads) (hgap : s.shape ≠ .gap)
    (hhead : s.shape ≠ .head) : s.read ≠ [] := by
  simpa using Shape.Holds.ne_nil h hgap hhead

theorem Reads.shape_ne_halted {s : Scanner} (h : s.Reads) : s.shape ≠ .halted := by
  intro hshape
  simp [Reads, hshape, Shape.Holds] at h

theorem wordKind_not_final (s : Scanner) : s.wordKind ≠ .eof ∧ s.wordKind ≠ .error := by
  unfold wordKind
  split <;> decide

theorem headKind_not_final (s : Scanner) : s.headKind ≠ .eof ∧ s.headKind ≠ .error := by
  unfold headKind
  split <;> decide

theorem read_ne_nil_of_atDefine {s : Scanner} (h : s.atDefine = true) : s.read ≠ [] := by
  intro hread
  simp [atDefine, hread] at h

/-- Nothing else happens: one case for each shape that the scanner can be in. -/
theorem step_move {s : Scanner} (p : Position) (c : Char) (h : s.Reads) :
    Move s p c (s.step p c) := by
  have hread := h.read_ne_nil
  unfold Reads at h
  unfold step
  cases hshape : s.shape with rw [hshape] at h hread
  | gap => exact .start (List.reverse_eq_nil_iff.1 h)
  | head =>
    simp only
    split
    case isTrue =>
      split
      case isTrue hempty =>
        split
        case isTrue hblank => exact .skip (List.isEmpty_iff.1 hempty) (by simp) hblank
        case isFalse => exact .refuse
      case isFalse hne => exact .finish (by simpa using hne) s.headKind_not_final
    case isFalse =>
      split
      case isTrue hdefine =>
        rw [Bool.and_eq_true] at hdefine
        exact .finish (read_ne_nil_of_atDefine hdefine.2) (by decide)
      case isFalse => exact .extend (by simp)
  | sign =>
    simp only
    split
    case isTrue => exact .extend (by simp)
    case isFalse =>
      split
      case isTrue => exact .extend (by simp)
      case isFalse =>
        split
        case isTrue => exact .finish (hread (by simp) (by simp)) s.wordKind_not_final
        case isFalse => exact .extend (by simp)
  | number digits =>
    simp only
    split
    case h_1 => exact .extend (by simp)
    case h_2 =>
      split
      case isTrue => exact .refuseAt
      case isFalse => exact .finish (hread (by simp) (by simp)) (by decide)
  | quoted delimiter escaped =>
    simp only
    split
    case isTrue => exact .extend (by simp)
    case isFalse =>
      split
      case isTrue => exact .extend (by simp)
      case isFalse =>
        split
        case isTrue => exact .close
        case isFalse => exact .extend (by simp)
  | word =>
    simp only
    split
    case isTrue => exact .finish (hread (by simp) (by simp)) s.wordKind_not_final
    case isFalse => exact .extend (by simp)
  | halted => exact h.elim

/-! ## Whole sources -/

theorem covers_emit {s : Scanner} {kind : TokenKind} {p : Position} {post : List Char}
    (hread : s.read ≠ []) (hkind : kind ≠ .eof) (hp : s.At p) :
    (s.emit kind p).Covers s.start s.read.reverse post where
  start := rfl
  line := rfl
  stop := congrArg Position.offset hp
  text _ := ⟨by simpa using hread, rfl⟩
  atEnd heof := absurd heof hkind

/-- A token that is finished, and what comes after it. -/
theorem tiles_emit {s : Scanner} {kind : TokenKind} {p : Position} {post : List Char}
    {ts : List Token} (hread : s.read ≠ []) (hkind : kind ≠ .eof ∧ kind ≠ .error) (hp : s.At p)
    (hts : Tiles p post ts) : Tiles s.start (s.read.reverse ++ post) (s.emit kind p :: ts) := by
  have hfinal : (s.emit kind p).isFinal = false := by simp [Token.isFinal, emit, hkind]
  exact .cons_here hfinal (covers_emit hread hkind.1 hp) (hp ▸ hts)

/-- An error in place of a token, at the end of what is refused. -/
theorem tiles_refuse (s : Scanner) (e : ScanError) {p : Position} {mid : List Char}
    (hp : p = s.start.after mid) (post : List Char) :
    Tiles s.start (mid ++ post) [s.refuse e p] := by
  refine .last_here rfl ⟨rfl, rfl, congrArg Position.offset hp, ?_, ?_⟩
  · intro hfinal
    cases hfinal
  · intro heof
    cases heof

/-- The scanner `s'` has read up to `p`, and what it makes of the rest of the source continues the
tokens `ts` to a tiling of the characters `cs`, and then that rest, from `start` on. -/
def Continues (start : Position) (cs : List Char) (ts : List Token) (s' : Scanner) (p : Position) :
    Prop :=
  s'.At p ∧ ∀ rest ts', Tiles s'.start (s'.read.reverse ++ rest) ts' →
    Tiles start (cs ++ rest) (ts ++ ts')

theorem begin_continues (p : Position) (c : Char) :
    Continues p [c] (begin p c).1 (begin p c).2 (p.advance c) := by
  unfold begin
  simp only
  split
  case isTrue hblank => exact ⟨rfl, fun rest ts hts => .blank hblank hts⟩
  case isFalse =>
    split
    case isTrue hopen =>
      subst hopen
      refine ⟨rfl, fun rest ts hts => ?_⟩
      exact tiles_emit (s := ⟨.gap, ['('], p⟩) (by simp) (by decide) rfl hts
    case isFalse =>
      split
      case isTrue hclose =>
        subst hclose
        refine ⟨rfl, fun rest ts hts => ?_⟩
        exact tiles_emit (s := ⟨.gap, [')'], p⟩) (by simp) (by decide) rfl hts
      case isFalse => exact ⟨rfl, fun rest ts hts => hts⟩

/-- Whatever a character does, no character is lost: what was read, and the character, are tiled as
soon as the rest is. -/
theorem Move.lossless {s : Scanner} {p : Position} {c : Char} {result : List Token × Scanner}
    (h : Move s p c result) (hp : s.At p) :
    (result.2.shape = .halted ∧ ∀ rest, Tiles s.start (s.read.reverse ++ [c] ++ rest) result.1) ∨
    (result.2.shape ≠ .halted ∧
      Continues s.start (s.read.reverse ++ [c]) result.1 result.2 (p.advance c)) := by
  have hnext : p.advance c = s.start.after (s.read.reverse ++ [c]) := by
    rw [Position.after_append, ← show p = s.start.after s.read.reverse from hp]
    rfl
  cases h with
  | extend hshape =>
    refine .inr ⟨hshape, by simpa [At, push] using hnext, fun rest ts hts => ?_⟩
    simpa [push] using hts
  | skip hread hshape hblank =>
    have hstart : p = s.start := by simpa [At, hread] using hp
    refine .inr ⟨hshape, by simp [At, hread], fun rest ts hts => ?_⟩
    subst hstart
    simpa [hread] using Tiles.blank hblank (by simpa [hread] using hts)
  | start hread =>
    have hstart : p = s.start := by simpa [At, hread] using hp
    obtain ⟨hat, hcontinues⟩ := begin_continues p c
    refine .inr ⟨(begin_sound p c).1.shape_ne_halted, hat, fun rest ts hts => ?_⟩
    rw [← hstart, hread]
    exact hcontinues rest ts hts
  | finish hread hkind =>
    obtain ⟨hat, hcontinues⟩ := begin_continues p c
    refine .inr ⟨(begin_sound p c).1.shape_ne_halted, hat, fun rest ts hts => ?_⟩
    rw [List.append_assoc]
    exact tiles_emit hread hkind hp (hcontinues rest ts hts)
  | @close shape =>
    refine .inr ⟨by simp [between], rfl, fun rest ts hts => ?_⟩
    have hpushed : (s.push shape c).At (p.advance c) := by simpa [At, push] using hnext
    rw [← List.reverse_cons]
    exact tiles_emit (by simp [push]) (by decide) hpushed hts
  | refuse =>
    refine .inl ⟨rfl, fun rest => ?_⟩
    rw [List.append_assoc]
    exact tiles_refuse s _ hp ([c] ++ rest)
  | refuseAt => exact .inl ⟨rfl, fun rest => tiles_refuse s _ hnext rest⟩

theorem tiles_eof (p : Position) : Tiles p [] [⟨.eof, "", p.offset, p.offset, p.line⟩] := by
  have hcovers : (⟨.eof, "", p.offset, p.offset, p.line⟩ : Token).Covers p [] [] :=
    ⟨rfl, rfl, rfl, fun hfinal => (by cases hfinal), fun _ => ⟨rfl, rfl⟩⟩
  exact .last_here rfl hcovers

theorem finish_tiles {s : Scanner} {p : Position} (h : s.Reads) (hp : s.At p) :
    Tiles s.start (s.read.reverse ++ []) (s.finish p) := by
  have hread := h.read_ne_nil
  unfold Reads at h
  unfold finish
  cases hshape : s.shape with rw [hshape] at h hread
  | gap =>
    have hnil : s.read.reverse = [] := h
    obtain rfl : p = s.start := by simpa [At, hnil] using hp
    simpa [hnil] using tiles_eof s.start
  | head =>
    simp only
    split
    case isTrue hdefine =>
      exact tiles_emit (read_ne_nil_of_atDefine hdefine) (by decide) hp (tiles_eof p)
    case isFalse => exact tiles_refuse s _ hp []
  | sign => exact tiles_emit (hread (by simp) (by simp)) s.wordKind_not_final hp (tiles_eof p)
  | number digits => exact tiles_emit (hread (by simp) (by simp)) (by decide) hp (tiles_eof p)
  | quoted delimiter escaped => exact tiles_refuse s _ hp []
  | word => exact tiles_emit (hread (by simp) (by simp)) s.wordKind_not_final hp (tiles_eof p)
  | halted => exact h.elim

/-- What has been read of a token, and the characters that are still to come, are tiled by the
tokens that are still to come. -/
theorem scan_tiles {s : Scanner} {p : Position} (h : s.Reads) (hp : s.At p) (cs : List Char) :
    Tiles s.start (s.read.reverse ++ cs) (s.scan p cs) := by
  induction cs generalizing s p with
  | nil => exact finish_tiles h hp
  | cons c rest ih =>
    have hlist : s.read.reverse ++ c :: rest = s.read.reverse ++ [c] ++ rest := by simp
    rw [scan, hlist]
    rcases (step_move p c h).lossless hp with ⟨hhalted, htiles⟩ | ⟨hshape, hat, htiles⟩
    · simpa [scan_halted _ _ hhalted] using htiles rest
    · rcases step_sound p c h with ⟨_, _, hhalted⟩ | ⟨hreads, -⟩
      · exact absurd hhalted hshape
      · exact htiles rest _ (ih hreads hat)

end Scanner

theorem tokenize_tiles (source : String) :
    Tiles .origin source.toList (tokenize source) :=
  Scanner.scan_tiles (s := .between .origin) rfl rfl source.toList

/-! ## What places count -/

/-- A line feed is encoded as one byte, and no other character has that byte. -/
theorem eq_lineFeed_of_mem_utf8EncodeChar {c : Char} (h : 10 ∈ String.utf8EncodeChar c) :
    c = '\n' := by
  have hbyte : ∀ {n : Nat}, n < 256 → 10 = UInt8.ofNat n → n = 10 := by
    intro n hn heq
    rw [← UInt8.toNat_ofNat_of_lt' hn, ← heq]
    rfl
  suffices hval : c.val.toNat = 10 from Char.toNat_inj.1 hval
  unfold String.utf8EncodeChar at h
  simp only at h
  -- Only characters of one byte can be encoded with a byte below 128.
  split at h
  case isTrue => exact hbyte (by omega) (List.mem_singleton.1 h)
  case isFalse =>
    split at h
    case isTrue =>
      simp only [List.mem_cons, List.not_mem_nil, or_false] at h
      rcases h with h | h <;> have := hbyte (by omega) h <;> omega
    case isFalse =>
      split at h <;> simp only [List.mem_cons, List.not_mem_nil, or_false] at h
      case isTrue => rcases h with h | h | h <;> have := hbyte (by omega) h <;> omega
      case isFalse => rcases h with h | h | h | h <;> have := hbyte (by omega) h <;> omega

theorem count_lineFeed_singleton (c : Char) :
    [c].utf8Encode.data.count 10 = if c = '\n' then 1 else 0 := by
  rw [List.utf8Encode_singleton, List.data_toByteArray, List.count_toArray]
  split
  case isTrue hc =>
    subst hc
    rfl
  case isFalse hc =>
    exact List.count_eq_zero.2 fun h => hc (eq_lineFeed_of_mem_utf8EncodeChar h)

/-- Offsets count bytes. -/
theorem Position.offset_after (p : Position) (cs : List Char) :
    (p.after cs).offset = p.offset + cs.utf8Encode.size := by
  induction cs generalizing p with
  | nil => simp
  | cons c cs ih =>
    have hsize : [c].utf8Encode.size = c.utf8Size := by
      rw [List.utf8Encode_singleton, List.size_toByteArray, String.length_utf8EncodeChar]
    rw [Position.after_cons, ih, List.utf8Encode_cons, ByteArray.size_append, hsize]
    simp [Position.advance, Nat.add_assoc]

/-- Lines count the bytes that are line feeds. -/
theorem Position.line_after (p : Position) (cs : List Char) :
    (p.after cs).line = p.line + cs.utf8Encode.data.count 10 := by
  induction cs generalizing p with
  | nil => simp
  | cons c cs ih =>
    rw [Position.after_cons, ih, List.utf8Encode_cons, ByteArray.data_append, Array.count_append,
      count_lineFeed_singleton]
    simp only [Position.advance]
    split <;> omega

theorem toUTF8_of_toList {source : String} {cs : List Char} (h : source.toList = cs) :
    source.toUTF8 = cs.utf8Encode := by
  rw [← String.ofList_toList (s := source), h]
  exact String.toByteArray_ofList

/-- The bytes from one place of a source to another encode the characters between them. -/
theorem extract_after {source : String} {pre mid post : List Char}
    (h : source.toList = pre ++ (mid ++ post)) :
    source.toUTF8.extract (Position.origin.after pre).offset
      (Position.origin.after (pre ++ mid)).offset = mid.utf8Encode := by
  have hstart : (Position.origin.after pre).offset = pre.utf8Encode.size + 0 := by
    simp [Position.offset_after, Position.origin]
  have hstop : (Position.origin.after (pre ++ mid)).offset
      = pre.utf8Encode.size + mid.utf8Encode.size := by
    simp [Position.offset_after, Position.origin]
  rw [toUTF8_of_toList h, List.utf8Encode_append, List.utf8Encode_append, hstart, hstop,
    ByteArray.extract_append_size_add, ByteArray.extract_append_eq_left rfl]

theorem extract_zero_after {source : String} {pre post : List Char}
    (h : source.toList = pre ++ post) :
    source.toUTF8.extract 0 (Position.origin.after pre).offset = pre.utf8Encode := by
  rw [toUTF8_of_toList h, List.utf8Encode_append]
  exact ByteArray.extract_append_eq_left (by simp [Position.offset_after, Position.origin])

theorem isValid_after {source : String} {pre post : List Char} (h : source.toList = pre ++ post) :
    String.Pos.Raw.IsValid source ⟨(Position.origin.after pre).offset⟩ := by
  refine String.Pos.Raw.isValid_iff_exists_append.2
    ⟨String.ofList pre, String.ofList post, ?_, ?_⟩
  · rw [← String.ofList_append, ← h, String.ofList_toList]
  · simp [Position.offset_after, Position.origin, String.rawEndPos, String.utf8ByteSize]

/-! ## Bytes -/

/-- A space, a tab, a carriage return or a line feed. -/
def isBlankByte (b : UInt8) : Bool := b = 32 || b = 9 || b = 13 || b = 10

/-- A token's numbers are right: they are boundaries of characters in the source, in order, and the
line is counted up to the first of them. -/
structure Token.Placed (source : String) (t : Token) : Prop where
  start_valid : String.Pos.Raw.IsValid source ⟨t.start⟩
  stop_valid : String.Pos.Raw.IsValid source ⟨t.stop⟩
  start_le_stop : t.start ≤ t.stop
  stop_le_size : t.stop ≤ source.toUTF8.size
  line : t.line = 1 + (source.toUTF8.extract 0 t.start).data.count 10

/-- From byte `n` on, the tokens stand in this order with only blanks before them. -/
def Spaced (source : String) (n : Nat) : List Token → Prop
  | [] => True
  | t :: ts =>
    n ≤ t.start ∧ (∀ b ∈ (source.toUTF8.extract n t.start).data, isBlankByte b = true) ∧
      Spaced source t.stop ts

/-- A source that is made up of its tokens, and blanks between them. -/
structure Tiled (source : String) (ts : List Token) : Prop where
  ends : ∃ body last, ts = body ++ [last] ∧ last.isFinal = true ∧ ∀ t ∈ body, t.isFinal = false
  placed : ∀ t ∈ ts, t.Placed source
  text : ∀ t ∈ ts, t.isFinal = false →
    t.text ≠ "" ∧ source.toUTF8.extract t.start t.stop = t.text.toUTF8
  spaced : Spaced source 0 ts
  disjoint : ts.Pairwise fun t t' => t.stop ≤ t'.start
  eof : ∀ t ∈ ts, t.kind = .eof → t.start = source.toUTF8.size ∧ t.stop = source.toUTF8.size

theorem isBlankByte_of_mem {gap : List Char} (hgap : ∀ c ∈ gap, isBlank c = true) :
    ∀ b ∈ gap.utf8Encode.data, isBlankByte b = true := by
  intro b hb
  rw [List.utf8Encode, List.data_toByteArray, List.mem_toArray, List.mem_flatMap] at hb
  obtain ⟨c, hc, hb⟩ := hb
  rcases isBlank_cases (hgap c hc) with rfl | rfl | rfl | rfl <;>
    obtain rfl := List.mem_singleton.1 hb <;> rfl

section Covers

variable {source : String} {t : Token} {pre mid post : List Char}

theorem Token.Covers.placed (h : t.Covers (Position.origin.after pre) mid post)
    (hsource : source.toList = pre ++ (mid ++ post)) : t.Placed source := by
  have hstop : String.Pos.Raw.IsValid source ⟨t.stop⟩ := by
    rw [h.stop, ← Position.after_append]
    exact isValid_after (by rw [hsource, List.append_assoc])
  have hbefore : source.toUTF8.extract 0 t.start = pre.utf8Encode := by
    rw [h.start, extract_zero_after hsource]
  refine ⟨?_, hstop, ?_, hstop.le_rawEndPos, ?_⟩
  · rw [h.start]
    exact isValid_after hsource
  · rw [h.start, h.stop, Position.offset_after _ mid]
    exact Nat.le_add_right _ _
  · rw [hbefore, h.line, Position.line_after]
    rfl

theorem Token.Covers.extract_eq (h : t.Covers (Position.origin.after pre) mid post)
    (hsource : source.toList = pre ++ (mid ++ post)) (hfinal : t.isFinal = false) :
    t.text ≠ "" ∧ source.toUTF8.extract t.start t.stop = t.text.toUTF8 := by
  obtain ⟨hmid, htext⟩ := h.text hfinal
  constructor
  · rw [htext]
    simpa using hmid
  · rw [h.start, h.stop, ← Position.after_append, extract_after hsource, htext]
    exact String.toByteArray_ofList.symm

theorem Token.Covers.eq_size (h : t.Covers (Position.origin.after pre) mid post)
    (hsource : source.toList = pre ++ (mid ++ post)) (heof : t.kind = .eof) :
    t.start = source.toUTF8.size ∧ t.stop = source.toUTF8.size := by
  obtain ⟨rfl, rfl⟩ := h.atEnd heof
  have hsize : (Position.origin.after pre).offset = source.toUTF8.size := by
    rw [toUTF8_of_toList hsource, Position.offset_after]
    simp [Position.origin]
  exact ⟨h.start.trans hsize, h.stop.trans hsize⟩

theorem Token.Covers.blank_before {gap : List Char}
    (h : t.Covers (Position.origin.after (pre ++ gap)) mid post)
    (hsource : source.toList = pre ++ (gap ++ (mid ++ post))) (hgap : ∀ c ∈ gap, isBlank c = true) :
    (Position.origin.after pre).offset ≤ t.start ∧
      ∀ b ∈ (source.toUTF8.extract (Position.origin.after pre).offset t.start).data,
        isBlankByte b = true := by
  constructor
  · rw [h.start, Position.after_append, Position.offset_after _ gap]
    exact Nat.le_add_right _ _
  · rw [h.start, extract_after hsource]
    exact isBlankByte_of_mem hgap

end Covers

section Tiles

variable {source : String} {pre cs : List Char} {ts : List Token}

/-- Each token of a tiling takes up a part of the source. -/
theorem Tiles.exists_covers (h : Tiles (Position.origin.after pre) cs ts) {t : Token}
    (ht : t ∈ ts) :
    ∃ before mid post, pre ++ cs = before ++ (mid ++ post) ∧
      t.Covers (Position.origin.after before) mid post := by
  generalize hp : Position.origin.after pre = p at h
  induction h generalizing pre with
  | @last _ gap mid post _ _ _ hcovers =>
    subst hp
    obtain rfl := List.mem_singleton.1 ht
    exact ⟨pre ++ gap, mid, post, by simp, by simpa using hcovers⟩
  | @cons _ gap mid post _ _ _ _ hcovers _ ih =>
    subst hp
    rcases List.mem_cons.1 ht with rfl | ht
    · exact ⟨pre ++ gap, mid, post, by simp, by simpa using hcovers⟩
    · simpa using ih ht (Position.after_append ..)

theorem Tiles.exists_last {p : Position} (h : Tiles p cs ts) :
    ∃ body last, ts = body ++ [last] ∧ last.isFinal = true ∧ ∀ t ∈ body, t.isFinal = false := by
  induction h with
  | last _ hfinal _ => exact ⟨[], _, rfl, hfinal, by simp⟩
  | @cons _ _ _ _ t _ _ hfinal _ _ ih =>
    obtain ⟨body, last, rfl, hlast, hbody⟩ := ih
    exact ⟨t :: body, last, rfl, hlast, by simpa [hfinal] using hbody⟩

theorem Tiles.spaced (h : Tiles (Position.origin.after pre) cs ts)
    (hsource : source.toList = pre ++ cs) :
    Spaced source (Position.origin.after pre).offset ts := by
  generalize hp : Position.origin.after pre = p at h
  induction h generalizing pre with
  | last hgap _ hcovers =>
    subst hp
    rw [← Position.after_append] at hcovers
    obtain ⟨hle, hblank⟩ := hcovers.blank_before hsource hgap
    exact ⟨hle, hblank, trivial⟩
  | @cons p gap mid post t ts hgap _ hcovers _ ih =>
    subst hp
    have hstop : t.stop = (Position.origin.after (pre ++ (gap ++ mid))).offset := by
      simpa using hcovers.stop
    have hrest : source.toList = pre ++ (gap ++ mid) ++ post := by simpa using hsource
    have hts := ih hrest (Position.after_append ..)
    rw [← Position.after_append] at hcovers
    obtain ⟨hle, hblank⟩ := hcovers.blank_before hsource hgap
    exact ⟨hle, hblank, by simpa [hstop] using hts⟩

end Tiles

theorem Spaced.pairwise {source : String} {n : Nat} {ts : List Token} (h : Spaced source n ts)
    (hplaced : ∀ t ∈ ts, t.Placed source) :
    (∀ t ∈ ts, n ≤ t.start) ∧ ts.Pairwise fun t t' => t.stop ≤ t'.start := by
  induction ts generalizing n with
  | nil => simp
  | cons t ts ih =>
    obtain ⟨hn, -, hts⟩ := h
    obtain ⟨hlater, hpairwise⟩ := ih hts fun t' ht' => hplaced t' (List.mem_cons_of_mem t ht')
    refine ⟨fun t' ht' => ?_, .cons hlater hpairwise⟩
    rcases List.mem_cons.1 ht' with rfl | ht'
    · exact hn
    · have hstop := (hplaced t (by simp)).start_le_stop
      exact Nat.le_trans hn (Nat.le_trans hstop (hlater t' ht'))

/-- **Tokens tile the source.**  Every source has tokens, the last of which and no other is the end
of the source or an error.  The others are what the source holds at the bytes they record, in that
order, and between them are only blanks. -/
theorem tokens_tile_the_source (source : String) : Tiled source (tokenize source) := by
  have htiles : Tiles (Position.origin.after []) source.toList (tokenize source) :=
    tokenize_tiles source
  have hcovers : ∀ t ∈ tokenize source, ∃ pre mid post, source.toList = pre ++ (mid ++ post) ∧
      t.Covers (Position.origin.after pre) mid post := fun t ht => by
    simpa using htiles.exists_covers ht
  have hplaced : ∀ t ∈ tokenize source, t.Placed source := fun t ht => by
    obtain ⟨pre, mid, post, hsource, h⟩ := hcovers t ht
    exact h.placed hsource
  have hspaced : Spaced source 0 (tokenize source) := htiles.spaced rfl
  refine ⟨htiles.exists_last, hplaced, fun t ht => ?_, hspaced, (hspaced.pairwise hplaced).2,
    fun t ht => ?_⟩
  · obtain ⟨pre, mid, post, hsource, h⟩ := hcovers t ht
    exact h.extract_eq hsource
  · obtain ⟨pre, mid, post, hsource, h⟩ := hcovers t ht
    exact h.eq_size hsource

example : tokenize "(f\r\n\t'é\n' 1x)" =
    [⟨.leftParen, "(", 0, 1, 1⟩, ⟨.call, "f", 1, 2, 1⟩, ⟨.string, "'é\n'", 5, 10, 2⟩,
      ⟨.error, "bad number syntax: 1x", 11, 13, 3⟩] := by decide

end HostLisp
