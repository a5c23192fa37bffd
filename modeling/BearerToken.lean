import BearerToken.Proofs.Bytes
import BearerToken.Proofs.CommandLine.Argument
import BearerToken.Proofs.CommandLine.Outcome
import BearerToken.Proofs.CommandLine.Output
import BearerToken.Proofs.CommandLine.Secrets
import BearerToken.Proofs.Hex
import BearerToken.Proofs.Hex.Decoder
import BearerToken.Proofs.Hex.Prefix
import BearerToken.Proofs.Hmac
import BearerToken.Proofs.Report
import BearerToken.Proofs.Report.Decoder
import BearerToken.Proofs.Report.Reader
import BearerToken.Proofs.Session
import BearerToken.Proofs.Sha256.Bits
import BearerToken.Proofs.Sha256.Compression
import BearerToken.Proofs.Sha256.Digest
import BearerToken.Proofs.Token
import BearerToken.Proofs.Token.Collision
import BearerToken.Session
import BearerToken.Standard
