import Sealedge.Delimited
import Sealedge.Fallible
import Sealedge.Numerals
import Sealedge.Texts
import Sealedge.Base64
import Sealedge.JsonString
import Sealedge.AtomicProgram
import Sealedge.Manifest
import Sealedge.ManifestText
import Sealedge.CanonicalSteps
import Sealedge.SerdeText
import Sealedge.MetadataReads
import Sealedge.ManifestReads
import Sealedge.ManifestInjective
import Sealedge.DeviceCrypto
import Sealedge.Rotation
import Sealedge.SampleCrates
import Sealedge.Witness
import Sealedge.Revocation
import Sealedge.WitnessDb
import Sealedge.WitnessHandler
import Sealedge.WitnessLedger
import Sealedge.WitnessAppend
import Sealedge.SoloWitness
import Sealedge.WitnessRefusal
import Sealedge.WitnessLineage
import Sealedge.PieceReader
import Sealedge.RotationReads
import Sealedge.Storage
import Sealedge.Archive
import Sealedge.HashChain
import Sealedge.VerifyChronicle
import Sealedge.ChronicleChecks
import Sealedge.ChronicleSound
import Sealedge.ChronicleTip
import Sealedge.WitnessPin
import Sealedge.ContentCrypto
import Sealedge.ArchiveWriter
import Sealedge.Wrap
import Sealedge.WrapSpec
import Sealedge.Rekey
import Sealedge.ChronicleRun
import Sealedge.WrapValid
import Sealedge.PointAttestation
import Sealedge.SignedDocuments
import Sealedge.Unwrap
import Sealedge.UnwrapOrigin
import Sealedge.Verify
import Sealedge.WrapReadable
import Sealedge.VerifyEngine
import Sealedge.VerifyHandler
import Sealedge.ReceiptSound
import Sealedge.EmitRequest
import Sealedge.SameVerdict
import Sealedge.Bincode
import Sealedge.Envelope
import Sealedge.EnvelopeSpec
import Sealedge.EnvelopeRoundTrip
import Sealedge.EnvelopeTamper
import Sealedge.EnvelopeIssuer
import Sealedge.ReceiptChain
import Sealedge.ReceiptHistory
import Sealedge.ContinuityTip
import Sealedge.RevokeHandler
import Sealedge.RevokeMonotone
import Sealedge.RevokedKeys
import Sealedge.RotationClosure
import Sealedge.StreamFormat
import Sealedge.StreamCli
import Sealedge.StreamRecords
import Sealedge.StreamWriter
import Sealedge.StreamRoundTrip
import Sealedge.StreamTruncation
import Sealedge.StreamAuthentic
import Sealedge.AuthProtocol
import Sealedge.EventTrace
import Sealedge.AuthRuns
import Sealedge.AuthOrigin
import Sealedge.AuthAgreement
import Sealedge.ConnectionLimits
import Sealedge.ClientIp
import Sealedge.BackendRegistry
import Sealedge.JsonText
import Sealedge.JsonReader
import Sealedge.ManifestDocument
import Sealedge.ManifestRoundTrip
import Sealedge.ManifestTransport
import Sealedge.ProfileVariants
import Sealedge.Jwks
import Sealedge.JwksRuns
import Sealedge.ChunkAad
import Sealedge.AuthWire
import Sealedge.SessionTable
import Sealedge.AuthHandshake
import Sealedge.KeyTransplant
import Sealedge.BufferedWriter
import Sealedge.UnixPath
import Sealedge.UnwrapFiles
import Sealedge.ChunkReader
import Sealedge.EnvelopeNonces
import Sealedge.Dialogue
import Sealedge.FrameCodec
import Sealedge.Upload
import Sealedge.LegacyUpload
import Sealedge.AuditRuns
import Sealedge.TenantIsolation
import Sealedge.EpochFloor
import Sealedge.KeyFiles
import Sealedge.KeyCustody
import Sealedge.KeyLoading
import Sealedge.KeyRuns
import Sealedge.Attestations
import Sealedge.AttestationOrigin
