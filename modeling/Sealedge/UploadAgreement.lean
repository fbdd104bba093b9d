import Sealedge.UploadSafety

namespace Sealedge

open Fallible Bincode PieceReader Dialogue FrameCodec

section Agreement

variable {x : Crates} {ec : EnvelopeCrates} {u : UploadCall} {key : Fixed 32}
  {config : ConnectionConfig} {keyedHash : Bytes → Bytes → Bytes}

/-- In every run of an upload, whatever timers run out and wherever the connection breaks. -/
theorem upload_safe {session : ProcessingSession} (hstart : SessionAfter [] session)
    (hcount : (u.source.plaintexts u.chunkSize 1).length < 2 ^ 64)
    {d : Scene (Framing ClientState) (Framing ServerState)}
    (h : ReachesRoughly (u.sender x ec) (framedUpsets (u.upsets x ec))
      (config.receiver keyedHash) (framedUpsets config.upsets)
      ⟨.ready (.sending key u.source 1), [], .ready (.serving session []), []⟩ d) :
    ∃ served lost sent, Logged config keyedHash
        (u.frames x ec key 1 (u.source.plaintexts u.chunkSize 1)) session sent d.right.state served
        lost ∧
      (u.sender x ec d.left = .done (.ok ()) →
        served.length = (u.source.plaintexts u.chunkSize 1).length) := by
  obtain ⟨got, sent, s, got', sent', t, hleft, hright, hgot, hgot', hstands, hstands'⟩ :=
    frames_of_rough (by decide) UploadCall.returns ConnectionConfig.returns h
  have hclient := clientAt_of_run hleft
  have hcall : ∀ i frame, (u.frames x ec key 1 (u.source.plaintexts u.chunkSize 1))[i]? =
      some frame → i + 1 < 2 ^ 64 ∧ ∃ pt, u.frame x ec key (i + 1) pt = .ok frame := by
    intro i frame hi
    obtain ⟨pt, hpt, hframe⟩ := UploadCall.frames_getElem? hi
    obtain ⟨hlt, -⟩ := List.getElem?_eq_some_iff.mp hpt
    exact ⟨by omega, pt, Nat.add_comm 1 i ▸ hframe⟩
  have hserver := serverAt_of_run hcall hstart hright (hgot'.trans hclient.sent_prefix)
  obtain ⟨served, lost, hlogged⟩ := hserver.logged hstands'
  refine ⟨served, lost, sent', hlogged, fun hok => ?_⟩
  have hdone := framed_eq_done hok
  rcases hstands with hstate | ⟨s', hgives, hleft'⟩
  · rw [hstate] at hdone
    obtain ⟨hframes, hcount'⟩ := hclient.succeeded hdone
    have hle := hgot.length_le
    have hge := hlogged.frames_prefix.length_le
    rw [List.length_map, List.length_append] at hge
    rw [hlogged.sent_length] at hle
    omega
  · obtain ⟨e, rfl⟩ := UploadCall.givesUp_error hgives
    rw [hleft'] at hdone
    simp [Framing.state, UploadCall.act] at hdone

/-- A file of three bytes, sent in pieces of two. -/
def sampleUpload : UploadCall where
  hardened := true
  chunkSize := 2
  source := .file (.full [1, 2, 3])
  signing := sampleKey 1
  noncePrefix := (sampleCall 2 [1, 2, 3]).noncePrefix
  keyId := (sampleCall 2 [1, 2, 3]).keyId
  deviceId := "sealedge-abc123"
  salt := "sealedge-demo-salt"
  tsMs _ := 1700000000000
  timestamp _ := 1700000000

example : ∃ d, ReachesRoughly (sampleUpload.sender sampleCrates taggedSample)
    (framedUpsets (sampleUpload.upsets sampleCrates taggedSample))
    (oneChunkConfig.receiver fun _ bytes => bytes) (framedUpsets oneChunkConfig.upsets)
    ⟨.ready (.sending sampleStreamKey sampleUpload.source 1), [],
      .ready (.serving (.new 1 false) []), []⟩ d ∧
    sampleUpload.sender sampleCrates taggedSample d.left =
      .done (.error "Chunk send timeout: deadline has elapsed") :=
  ⟨_, .single (.left List.mem_cons_self (List.nil_prefix)), rfl⟩

end Agreement

end Sealedge
