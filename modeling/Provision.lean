import Provision.Blueprint
import Provision.CommandLine
import Provision.CommandLine.Read
import Provision.Config
import Provision.Config.Executable
import Provision.Config.Json
import Provision.Config.Read
import Provision.Config.Write
import Provision.Console
import Provision.Files
import Provision.Glob
import Provision.Graph
import Provision.Graph.Cycle
import Provision.Graph.Traversal
import Provision.Json
import Provision.Json.Token
import Provision.Listing
import Provision.Load
import Provision.Log
import Provision.Main
import Provision.Number.Binary64
import Provision.Number.Rounded
import Provision.Number.Shortest
import Provision.Outcome
import Provision.Outcome.Json
import Provision.Pass
import Provision.Pass.Procedure
import Provision.Plan
import Provision.Process
import Provision.Program
import Provision.Recipe
import Provision.Recipe.Binding
import Provision.Recipe.Expansion
import Provision.Recipe.Template
import Provision.Regex
import Provision.Regex.Read
import Provision.Registry
import Provision.Sandbox
import Provision.Script
import Provision.Script.Argument
import Provision.Script.Arithmetic
import Provision.Script.Builtin
import Provision.Script.Compound
import Provision.Script.Cursor
import Provision.Script.Directory
import Provision.Script.Expand
import Provision.Script.Field
import Provision.Script.Invoke
import Provision.Script.Job
import Provision.Script.Lines
import Provision.Script.Parameter
import Provision.Script.Read
import Provision.Script.Reading
import Provision.Script.Redirect
import Provision.Script.Runner
import Provision.Script.Session
import Provision.Script.Signal
import Provision.Script.Start
import Provision.Script.Variable
import Provision.Shell
import Provision.StatusTable
import Provision.Text.Blank
import Provision.Text.Column
import Provision.Text.Combining
import Provision.Text.Octets
import Provision.Text.Printable
import Provision.Text.Quoted
import Provision.Text.Utf8
import Provision.Tool
import Provision.Tool.Calculate
import Provision.Tool.Change
import Provision.Tool.Column
import Provision.Tool.Compare
import Provision.Tool.Condition
import Provision.Tool.Count
import Provision.Tool.Digest
import Provision.Tool.Edit
import Provision.Tool.Edit.Program
import Provision.Tool.Find
import Provision.Tool.List
import Provision.Tool.Mode
import Provision.Tool.Path
import Provision.Tool.Print
import Provision.Tool.Search
import Provision.Tool.Show
import Provision.Tool.Sort
import Provision.Tool.Start
import Provision.Tool.System
import Provision.Tool.Table
import Provision.Validation
import Provision.Yaml.Decode
import Provision.Yaml.Mark
import Provision.Yaml.Node
import Provision.Yaml.Node.Read
import Provision.Yaml.Outline
import Provision.Yaml.Outline.Render
import Provision.Yaml.Outline.Scalar
import Provision.Yaml.Scalar
import Provision.Yaml.Source
import Provision.Yaml.Token
import Provision.Yaml.Token.Property
import Provision.Yaml.Token.Scalar
import Provision.Yaml.Token.Scan
import Provision.Yaml.Value
import Provision.Yaml.Value.Loose
import Provision.Yaml.Value.Read
import Provision.Proofs.Graph.Cycle
import Provision.Proofs.Graph.Edges
import Provision.Proofs.Distinct
import Provision.Proofs.Graph.Scope
import Provision.Proofs.Graph.Traversal
import Provision.Proofs.Graph.Order
import Provision.Proofs.Graph.Agreement
import Provision.Proofs.Blueprint
import Provision.Proofs.InstallOrder
import Provision.Proofs.Result
import Provision.Proofs.Uniform
import Provision.Proofs.Registry
import Provision.Proofs.Recipe.Refusal
import Provision.Proofs.Recipe.Expansion
import Provision.Proofs.Recipe.Nesting
import Provision.Proofs.Pass.Procedure
import Provision.Proofs.Pass.Classification
import Provision.Proofs.Pass.Safety
import Provision.Proofs.Recipe.Symbolic
import Provision.Proofs.Recipe.Binding
import Provision.Proofs.Pass.Status
import Provision.Proofs.Yaml.Decode
import Provision.Proofs.Yaml.Loose
import Provision.Proofs.Config.Declared
import Provision.Proofs.Config.Accepted
import Provision.Proofs.Yaml.Outline
import Provision.Proofs.Config.Write
import Provision.Proofs.Number.Binary64
import Provision.Proofs.Number.Shortest
import Provision.Proofs.Number.Layout
import Provision.Proofs.Yaml.Number
import Provision.Proofs.Yaml.Written
import Provision.Proofs.Yaml.Fit
import Provision.Proofs.Yaml.Readback.Source
import Provision.Proofs.Yaml.Readback.Plain
import Provision.Proofs.Yaml.Readback.Quoted
import Provision.Proofs.Yaml.Readback.Literal
import Provision.Proofs.Yaml.Readback.Tag
import Provision.Proofs.Yaml.Readback.Release
import Provision.Proofs.Yaml.Readback.Leads
import Provision.Proofs.Yaml.Readback.Spot
import Provision.Proofs.Yaml.Readback.Indicator
import Provision.Proofs.Yaml.Readback.Leaf
import Provision.Proofs.Yaml.Readback.Line
import Provision.Proofs.Yaml.Readback.SimpleKey
import Provision.Proofs.Yaml.Readback.Block
import Provision.Proofs.Yaml.Readback.Document
import Provision.Proofs.Yaml.Readback.Tree
import Provision.Proofs.Yaml.Readback.Recover
import Provision.Proofs.Yaml.Readback.Values
import Provision.Proofs.Config.Fit
import Provision.Proofs.Config.Written
import Provision.Proofs.Console.Answer
import Provision.Proofs.Pass.Convergence
import Provision.Proofs.Pass.Rearrangement
import Provision.Proofs.Console.Consent
import Provision.Proofs.Pass.Hollow
import Provision.Proofs.Graph.Emission
import Provision.Proofs.Graph.Closure
import Provision.Proofs.Graph.Layers
import Provision.Proofs.Config.Grammar
import Provision.Proofs.Config.Strict
import Provision.Proofs.Graph.Search
import Provision.Proofs.Graph.Alike
import Provision.Proofs.Recipe.Segments
import Provision.Proofs.Recipe.ShellText
import Provision.Proofs.Recipe.Arguments
import Provision.Proofs.Pass.Resolution
import Provision.Proofs.Validation.Roots
import Provision.Proofs.Text.Column
import Provision.Proofs.StatusTable
import Provision.Proofs.Graph.Counting
import Provision.Proofs.Graph.Linking
import Provision.Proofs.Graph.Marks
import Provision.Proofs.Graph.Mirror
