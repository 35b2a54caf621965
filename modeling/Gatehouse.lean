import Gatehouse.Text.Blank
import Gatehouse.Text.Split
import Gatehouse.Text.Numeral
import Gatehouse.Text.Quoted
import Gatehouse.Hash.Md5
import Gatehouse.Hash.Sha1
import Gatehouse.Base64
import Gatehouse.Form
import Gatehouse.Json.Reader
import Gatehouse.Config
import Gatehouse.Store
import Gatehouse.Identity.Cache
import Gatehouse.Auth.Challenge
import Gatehouse.Digest.Response
import Gatehouse.OAuth.Header
import Gatehouse.Digest.Verification
import Gatehouse.OAuth.Verification
import Gatehouse.OAuth.SignedUrl
import Gatehouse.Auth.Authentication
import Gatehouse.Access.Cache
import Gatehouse.Access.Scripted
import Gatehouse.Access.Reference
import Gatehouse.Gateway.Basic
import Gatehouse.Main
import Gatehouse.Proofs.Access.Invalidation
import Gatehouse.Proofs.Auth.SignedAddress
import Gatehouse.Proofs.Access.Consistency
import Gatehouse.Proofs.Access.Failure
import Gatehouse.Proofs.Access.Transparency
import Gatehouse.Proofs.Gateway.Evidence
import Gatehouse.Proofs.Access.Freshness
import Gatehouse.Proofs.Digest.Challenge
import Gatehouse.Proofs.Digest.History
import Gatehouse.Proofs.OAuth.SignedUrl
import Gatehouse.Proofs.OAuth.Transport
import Gatehouse.Proofs.Auth.Atomicity
import Gatehouse.Proofs.Auth.DigestTarget
import Gatehouse.Proofs.Access.Frame
import Gatehouse.Proofs.Access.Twins
import Gatehouse.Proofs.Access.Isolation
import Gatehouse.Proofs.Gateway.Authority
import Gatehouse.Proofs.Gateway.Rejection
import Gatehouse.Proofs.Identity.Accounts
import Gatehouse.Proofs.Digest.NonceGrammar
import Gatehouse.Proofs.OAuth.Archive
import Gatehouse.Proofs.OAuth.SignedSet
import Gatehouse.Proofs.Access.Invariant
import Gatehouse.Proofs.Access.Coverage
import Gatehouse.Proofs.Digest.HeaderGrammar
import Gatehouse.Proofs.Digest.Preimage
import Gatehouse.Proofs.Access.Plan
import Gatehouse.Proofs.Access.Trials
import Gatehouse.Proofs.Digest.Encoding
import Gatehouse.Proofs.OAuth.ReadBack
import Gatehouse.Proofs.OAuth.SigningKey
import Gatehouse.Proofs.OAuth.HeaderGrammar
import Gatehouse.Proofs.OAuth.Normalization
import Gatehouse.Proofs.Text.Cuts
import Gatehouse.Proofs.Access.Facts
import Gatehouse.Proofs.Access.Marks
import Gatehouse.Proofs.Access.Retries
import Gatehouse.Proofs.Access.Simulation
import Gatehouse.Proofs.Access.Sweeps
