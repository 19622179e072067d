import NameHunt.Document.Json.Reader
import NameHunt.Entry.Record
import NameHunt.Main
import NameHunt.Proofs.Cache.Hash
import NameHunt.Proofs.Cache.Layout
import NameHunt.Proofs.Cache.Slots
import NameHunt.Proofs.CommandLine.Preview
import NameHunt.Proofs.Domains
import NameHunt.Proofs.Entry.RoundTrip
import NameHunt.Proofs.Grammar
import NameHunt.Proofs.Hunt.Checkpoints
import NameHunt.Proofs.Hunt.Rejection
import NameHunt.Proofs.Hunt.Turns
import NameHunt.Proofs.Lookup.Registry
import NameHunt.Proofs.Report.Findings
import NameHunt.Proofs.Report.Verdict
import NameHunt.Proofs.Settings.Ranges
import NameHunt.Proofs.Settings.Timeout
import NameHunt.Proofs.Sizing
import NameHunt.Proofs.Tour
import NameHunt.Proofs.Walks
import NameHunt.Proofs.Text.Number
