import FakeData.Bindings
import FakeData.CommandLine.Invocation
import FakeData.CommandLine.Outcome
import FakeData.CommandLine.Words
import FakeData.Config
import FakeData.Dataset
import FakeData.Draw.Basic
import FakeData.Draw.Script
import FakeData.Failure
import FakeData.FileSystem
import FakeData.Generator
import FakeData.Json.Basic
import FakeData.Json.Fault
import FakeData.Json.Lexer
import FakeData.Json.Pointer
import FakeData.Json.Reader
import FakeData.Json.Skip
import FakeData.Locale
import FakeData.Locale.Json
import FakeData.Locale.Yaml
import FakeData.Main
import FakeData.Mismatch
import FakeData.Number.Binary64
import FakeData.Number.Digits
import FakeData.Number.Shortest
import FakeData.Path
import FakeData.Proofs.Draw
import FakeData.Proofs.Except
import FakeData.Proofs.Extraction
import FakeData.Proofs.Json.DistinctKeys
import FakeData.Proofs.Location
import FakeData.Proofs.Path
import FakeData.Proofs.Provider
import FakeData.Proofs.Request
import FakeData.Proofs.Request.Grammar
import FakeData.Proofs.Resolution
import FakeData.Proofs.Selection
import FakeData.Proofs.Session
import FakeData.Proofs.Synthesis
import FakeData.Proofs.Text
import FakeData.Provider
import FakeData.Random.ChaCha
import FakeData.Random.Sampler
import FakeData.Registry
import FakeData.Request
import FakeData.Resolution
import FakeData.Selection
import FakeData.Synthesis
import FakeData.Text.Blank
import FakeData.Text.Hidden
import FakeData.Text.Lowercase
import FakeData.Text.Pieces
import FakeData.Text.Quoted
import FakeData.Yaml.Block
import FakeData.Yaml.Character
import FakeData.Yaml.Cursor
import FakeData.Yaml.Gap
import FakeData.Yaml.Mark
import FakeData.Yaml.Meaning
import FakeData.Yaml.Node
import FakeData.Yaml.Plain
import FakeData.Yaml.Quoted
import FakeData.Yaml.Reader
import FakeData.Yaml.Record
import FakeData.Yaml.Token
import FakeData.Yaml.Token.Lexer
import FakeData.Yaml.Writer
import FakeData.Proofs.Request.Display
import FakeData.Proofs.Json.Lexer
import FakeData.Proofs.Json.Token
import FakeData.Proofs.Json.Spelling
import FakeData.Proofs.Json.PlainReading
import FakeData.Proofs.Correlation
import FakeData.Proofs.Registry
import FakeData.Proofs.Registry.Run
import FakeData.Proofs.Workshop
import FakeData.Proofs.CommandLine
import FakeData.Proofs.Json.Pointer
import FakeData.Proofs.Addressing
import FakeData.Proofs.Draw.Script
import FakeData.Proofs.Synthesis.Schedule
import FakeData.Proofs.Synthesis.Arrangement
import FakeData.Proofs.Synthesis.Layout
import FakeData.Proofs.Config.Layers
import FakeData.Proofs.Selection.Choices
import FakeData.Proofs.CommandLine.Precedence
import FakeData.Proofs.Synthesis.Content
import FakeData.Proofs.Selection.Failure
import FakeData.Proofs.Selection.Modes
import FakeData.Proofs.Extraction.Contract
import FakeData.Proofs.Text.Lowercase
import FakeData.Proofs.Codes
import FakeData.Proofs.Random.Sampler
import FakeData.Proofs.Provider.Address
import FakeData.Proofs.Json.Taking
import FakeData.Proofs.Json.Truncation
import FakeData.Proofs.Yaml.Scalar
import FakeData.Proofs.Yaml.Escape
import FakeData.Proofs.Yaml.Block
import FakeData.Proofs.Yaml.Value
import FakeData.Proofs.Yaml.Line
import FakeData.Proofs.Yaml.Record
import FakeData.Proofs.Number
import FakeData.Proofs.Yaml.Codec
import FakeData.Proofs.Config.RoundTrip
import FakeData.Proofs.Random.Stream
import FakeData.Proofs.Json.Skip
import FakeData.Proofs.Locale.Json
import FakeData.Proofs.Locale.Yaml
import FakeData.Proofs.Locale.Json
import FakeData.Proofs.Locale.Yaml
