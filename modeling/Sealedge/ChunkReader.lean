import Sealedge.Slices
import Sealedge.WrapSpec

namespace Sealedge

open Fallible PieceReader

section Reading

variable {ρ : Type} (read : Nat → ρ → Except IoError (Bytes × ρ))

/-- The loop of `read_exact_or_eof` over any reader, for at most so many reads. -/
def fillFrom (size : Nat) : Nat → ρ → Bytes → Except IoError (Option (Bytes × ρ))
  | 0, r, buf => if buf.length < size then .ok none else .ok (some (buf, r))
  | reads + 1, r, buf =>
    if buf.length < size then do
      let (piece, r') ← read (size - buf.length) r
      if piece = [] then .ok (some (buf, r')) else fillFrom size reads r' (buf ++ piece)
    else .ok (some (buf, r))

/-- `read_exact_or_eof` over any reader. -/
def readExactOrEofFrom (reads : Nat) (r : ρ) (size : Nat) :
    Except IoError (Option (Bytes × ρ)) :=
  fillFrom read size reads r []

/-- The buffers that calls return until one is empty, for at most so many calls. -/
def chunksFrom (size reads : Nat) : Nat → ρ → Except IoError (Option (List Bytes))
  | 0, _ => .ok none
  | calls + 1, r => do
    match ← readExactOrEofFrom read reads r size with
    | none => .ok none
    | some (chunk, r') =>
      if chunk = [] then .ok (some [])
      else do
        let rest ← chunksFrom size reads calls r'
        .ok (rest.map (chunk :: ·))

end Reading

section Delivered

variable {ρ : Type} {read : Nat → ρ → Except IoError (Bytes × ρ)} {left : ρ → Bytes → Prop}

theorem fillFrom_delivered (hread : Delivers read left) {size reads : Nat} {r : ρ}
    {items buf : Bytes} (hleft : left r items) (hbuf : buf.length ≤ size)
    (hreads : items.length < reads) :
    ∃ r', fillFrom read size reads r buf =
        .ok (some (buf ++ items.take (size - buf.length), r')) ∧
      left r' (items.drop (size - buf.length)) := by
  induction reads generalizing r items buf with
  | zero => omega
  | succ reads ih =>
    rw [fillFrom]
    by_cases hroom : buf.length < size
    · obtain ⟨piece, rest, r', hok, rfl, hfits, hmore, hrest⟩ := hread hleft
        (by omega : 0 < size - buf.length)
      rw [if_pos hroom, hok]
      by_cases hend : piece = []
      · have hnone : piece ++ rest = [] := by
          by_contra hne
          exact hmore hne hend
        obtain ⟨-, rfl⟩ := List.append_eq_nil_iff.mp hnone
        subst hend
        exact ⟨r', by simp [bind, Except.bind], by simpa using hrest⟩
      · have hpos := List.length_pos_of_ne_nil hend
        rw [List.length_append] at hreads
        have hwithin : (buf ++ piece).length ≤ size := by
          rw [List.length_append]
          omega
        obtain ⟨r'', hfill, hlast⟩ := ih hrest hwithin (by omega)
        -- the part of the room that the piece leaves is filled from the rest
        have hsize : size - (buf ++ piece).length = size - buf.length - piece.length := by
          rw [List.length_append]
          omega
        rw [hsize] at hfill hlast
        refine ⟨r'', ?_, ?_⟩
        · rw [List.take_append, List.take_of_length_le hfits, ← List.append_assoc, ← hfill]
          simp [bind, Except.bind, hend]
        · rw [List.drop_append, List.drop_of_length_le hfits, List.nil_append]
          exact hlast
    · have hzero : size - buf.length = 0 := by omega
      rw [if_neg hroom, hzero]
      exact ⟨r, by simp, by simpa using hleft⟩

theorem readExactOrEofFrom_delivered (hread : Delivers read left) {size reads : Nat} {r : ρ}
    {items : Bytes} (hleft : left r items) (hreads : items.length < reads) :
    ∃ r', readExactOrEofFrom read reads r size = .ok (some (items.take size, r')) ∧
      left r' (items.drop size) :=
  fillFrom_delivered hread hleft (Nat.zero_le size) hreads

end Delivered

/-- Calls of `read_exact_or_eof` until it returns an empty buffer end, and return the slices of
what the reader delivers, whatever pieces it delivers it in. -/
theorem readExactOrEof_yields_slices {ρ : Type} {read : Nat → ρ → Except IoError (Bytes × ρ)}
    {left : ρ → Bytes → Prop} (hread : Delivers read left) {r : ρ} {d : Bytes} (hleft : left r d)
    {s : Nat} (hs : 1 ≤ s) {reads calls : Nat} (hreads : d.length < reads)
    (hcalls : d.length < calls) : chunksFrom read s reads calls r = .ok (some (d.toChunks s)) := by
  induction calls generalizing r d with
  | zero => omega
  | succ calls ih =>
    obtain ⟨r', hchunk, hrest⟩ := readExactOrEofFrom_delivered hread hleft hreads
    rw [chunksFrom, hchunk]
    by_cases hend : d = []
    · subst hend
      simp [bind, Except.bind, List.toChunks]
    · have htake : d.take s ≠ [] := by
        rw [ne_eq, List.take_eq_nil_iff]
        rintro (hzero | hnil)
        · omega
        · exact hend hnil
      have hpos := List.length_pos_of_ne_nil hend
      have hdrop : (d.drop s).length < d.length := by
        rw [List.length_drop]
        omega
      have hslices := ih hrest (by omega) (by omega)
      rw [Slices.toChunks_of_ne_nil hs hend]
      simp [bind, Except.bind, htake, hslices]

theorem slices_of_short_reads :
    chunksFrom (fun room (r : Reader UInt8) => .ok (r.read room)) 3 8 8
      ⟨[1, 2, 3, 4, 5, 6, 7], [1, 1, 2, 5]⟩ = .ok (some [[1, 2, 3], [4, 5, 6], [7]]) :=
  readExactOrEof_yields_slices (s := 3) Reader.delivers rfl (by decide) (by decide) (by decide)

theorem wrapChunks_slices {x : Crates} {c : ContentCrates} {fig : Figures} {faults : Faults}
    {job : ChunkJob} (hsize : 0 < job.chunkSize) {reader : Reader UInt8} {i : Nat}
    {w : ArchiveWriter} {out : ChunksOut}
    (h : wrapChunks x c fig faults job reader i w = .ok out) :
    StoredFrom c job i (reader.rest.toChunks job.chunkSize) out.stored := by
  induction hn : reader.rest.length using Nat.strong_induction_on generalizing reader i w out with
  | _ n ih =>
    rcases wrapChunks_cases h with
      ⟨hend, rfl⟩ | ⟨bytes, reader', rest, hend, hrest, hlt, hstore, hloop, rfl⟩
    · rcases List.take_eq_nil_iff.mp hend with hzero | hnil
      · omega
      · rw [hnil]
        exact .nil
    · have hne : reader.rest ≠ [] := by
        rintro hnil
        rw [hnil, List.take_nil] at hend
        exact hend rfl
      rw [Slices.toChunks_of_ne_nil hsize hne, ← hrest]
      exact .cons hstore (ih _ (by omega) hloop rfl)

/-- What a wrap writes to disk are the slices of its input, sealed one after the other. -/
theorem signArchive_slices {x : Crates} {c : ContentCrates} {fig : Figures} {st : Storage}
    {env : WrapEnv} {args : WrapCmd} {a : SignedArchive} (hsize : 0 < args.chunkSize)
    (h : signArchive x c fig st env args = .ok a) :
    ∃ reader, env.input.opened = .ok reader ∧
      StoredFrom c (chunkJob x env args (a.bundle.signing.public x)) 0
        (reader.rest.toChunks args.chunkSize) a.stored := by
  obtain ⟨_, -, h⟩ := bind_eq_ok.mp h
  obtain ⟨bundle, -, h⟩ := bind_eq_ok.mp h
  obtain ⟨publicKey, hpublic, h⟩ := bind_eq_ok.mp h
  obtain ⟨deviceId, -, h⟩ := bind_eq_ok.mp h
  obtain ⟨reader, hreader, h⟩ := bind_eq_ok.mp h
  obtain ⟨_, -, h⟩ := bind_eq_ok.mp h
  obtain ⟨w, -, h⟩ := bind_eq_ok.mp h
  obtain ⟨out, hloop, h⟩ := bind_eq_ok.mp h
  obtain ⟨metadata, -, h⟩ := bind_eq_ok.mp h
  obtain ⟨link, -, h⟩ := bind_eq_ok.mp h
  obtain ⟨finished, -, h⟩ := bind_eq_ok.mp h
  cases h
  rw [signingPublicKey_eq_ok hpublic] at hloop
  exact ⟨reader, openInput_eq_ok hreader, wrapChunks_slices hsize hloop⟩

end Sealedge
