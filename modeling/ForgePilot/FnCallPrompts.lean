import ForgePilot.Characters
import ForgePilot.Values

/-!
# Prompts for models without function calls

A model that cannot call functions is told in its system prompt which functions there
are and how a call is written, and the first message of the user is put between an
example of a conversation and a reminder. The example is made of parts, and each part
is used when its tool is available.
-/

namespace ForgePilot.FnCalls

open Characters

abbrev Text := List Char

/-- What the conversion leaves to its surroundings: the JSON reader and writer, how
lists and mappings are printed, and the platform. A text that the reader refuses may be
malformed, or it exceeds a limit on nesting or on the digits of a number. -/
structure Environment where
  loads : Text → Option Value
  exceeds : Text → Bool := fun _ => false
  dumps : Value → Text
  repr : Value → Text
  windows : Bool

/-- What is declared about a parameter of a tool. -/
structure Property where
  type : Option Value := none
  description : Option Text := none
  enum : Option (List Value) := none

structure Parameters where
  properties : Option (List (Text × Property)) := none
  required : Option (List Text) := none

def functionType : Text := ['f', 'u', 'n', 'c', 't', 'i', 'o', 'n']

/-- A tool that the model may call. -/
structure Tool where
  type : Text := functionType
  name : Text
  description : Text
  parameters : Option Parameters := none

def printed (environment : Environment) : Value → Text
  | .none => "None".toList
  | .bool value => if value then "True".toList else "False".toList
  | .int value => (toString value).toList
  | .float printed => printed.toList
  | .str text => text.toList
  | .object _ printed => printed.toList
  | other => environment.repr other

/-- Lines of text, each with its end. -/
def lines (texts : List String) : Text := texts.flatMap (fun line => line.toList ++ ['\n'])

def parameterLine (environment : Environment) (required : List Text) (number : Nat)
    (name : Text) (property : Property) : Text :=
  let status := if name ∈ required then "required" else "optional"
  let type := property.type.elim "string".toList (printed environment)
  let allowed := property.enum.elim [] (fun values =>
    "\nAllowed values: [".toList ++ ", ".toList.intercalate (values.map (fun value =>
      "`".toList ++ printed environment value ++ "`".toList)) ++ "]".toList)
  "  (".toList ++ (toString number).toList ++ ") ".toList ++ name ++ " (".toList ++ type ++
    ", ".toList ++ status.toList ++ "): ".toList ++
    property.description.getD "No description provided".toList ++ allowed ++ "\n".toList

/-- The lines that describe the parameters of a tool. -/
def parameterLines (environment : Environment) (parameters : Option Parameters) : Text :=
  match parameters with
  | none => "No parameters are required for this function.\n".toList
  | some parameters =>
      "Parameters:\n".toList ++
        ((parameters.properties.getD []).zipIdx.flatMap (fun entry =>
          parameterLine environment (parameters.required.getD []) (entry.2 + 1) entry.1.1
            entry.1.2))

def toolLines (environment : Environment) (position : Nat) (tool : Tool) : Text :=
  (if 0 < position then "\n".toList else []) ++
    "---- BEGIN FUNCTION #".toList ++ (toString (position + 1)).toList ++ ": ".toList ++
    tool.name ++ " ----\nDescription: ".toList ++ tool.description ++ "\n".toList ++
    parameterLines environment tool.parameters ++
    "---- END FUNCTION #".toList ++ (toString (position + 1)).toList ++ " ----\n".toList

/-- The description of all tools; every tool has to be a function. -/
def convertToolsToDescription (environment : Environment) (tools : List Tool) : Option Text :=
  if tools.all (fun tool => tool.type = functionType) then
    some (tools.zipIdx.flatMap (fun entry => toolLines environment entry.2 entry.1))
  else none

/-- What the system prompt is followed by, before the description of the tools. -/
def systemPromptSuffixStart : Text :=
  lines
    ["", "You have access to the following functions:", ""]

/-- What the system prompt is followed by, after the description of the tools. -/
def systemPromptSuffixEnd : Text :=
  lines
    ["", "",
     "If you choose to call a function ONLY reply in the following format with NO suffix:", "",
     "<function=example_function_name>", "<parameter=example_parameter_1>value_1</parameter>",
     "<parameter=example_parameter_2>", "This is the value for the second parameter",
     "that can span", "multiple lines", "</parameter>", "</function>", "", "<IMPORTANT>",
     "Reminder:",
     "- Function calls MUST follow the specified format, start with <function= and end " ++
      "with </function>",
     "- Required parameters MUST be specified", "- Only call one function at a time",
     "- You may provide optional reasoning for your function call in natural language " ++
      "BEFORE the function call, but NOT after.",
     "- If there is no function call available, answer the question like normal with your " ++
      "current knowledge and do not tell the user about function calls",
     "</IMPORTANT>"]

/-- What follows the first message of the user when an example stands before it. -/
def inContextLearningExampleSuffix : Text :=
  lines
    ["", "--------------------- END OF NEW TASK DESCRIPTION ---------------------", "",
     "PLEASE follow the format strictly! PLEASE EMIT ONE AND ONLY ONE FUNCTION CALL PER " ++
      "MESSAGE."]

/-- How the example begins. -/
def exampleStart : Text :=
  lines
    ["Here's a running example of how to perform a task with the provided tools.", "",
     "--------------------- START OF EXAMPLE ---------------------", "",
     "USER: Create a list of numbers from 1 to 10, and display them in a web page at port " ++
      "5000.",
     ""]

def exampleEnd : Text :=
  lines
    ["", "--------------------- END OF EXAMPLE ---------------------", "",
     "Do NOT assume the environment is the same as in the example above.", "",
     "--------------------- NEW TASK DESCRIPTION ---------------------"]

/-- The agent looks around with the shell. -/
def executeBashCheckDir : Text :=
  lines
    ["", "ASSISTANT: Sure! Let me first check the current directory:",
     "<function=execute_bash>", "<parameter=command>", "pwd && ls", "</parameter>",
     "</function>", "", "USER: EXECUTION RESULT of [execute_bash]:", "/workspace",
     "openhands@runtime:~/workspace$"]

/-- The agent starts a server with the shell. -/
def executeBashRunServer : Text :=
  lines
    ["", "ASSISTANT:", "Let me run the Python file for you:", "<function=execute_bash>",
     "<parameter=command>", "python3 app.py > server.log 2>&1 &", "</parameter>",
     "</function>", "", "USER: EXECUTION RESULT of [execute_bash]:", "[1] 121",
     "[1]+  Exit 1                  python3 app.py > server.log 2>&1", "", "ASSISTANT:",
     "Looks like the server was running with PID 121 then crashed. Let me check the server" ++
      " log:",
     "<function=execute_bash>", "<parameter=command>", "cat server.log", "</parameter>",
     "</function>", "", "USER: EXECUTION RESULT of [execute_bash]:",
     "Traceback (most recent call last):", "  File \"/workspace/app.py\", line 2, in <module>",
     "    from flask import Flask", "ModuleNotFoundError: No module named 'flask'", "",
     "ASSISTANT:",
     "Looks like the server crashed because the `flask` module is not installed. Let me " ++
      "install the `flask` module for you:",
     "<function=execute_bash>", "<parameter=command>", "pip3 install flask", "</parameter>",
     "</function>", "", "USER: EXECUTION RESULT of [execute_bash]:",
     "Defaulting to user installation because normal site-packages is not writeable",
     "Collecting flask", "  Using cached flask-3.0.3-py3-none-any.whl (101 kB)",
     "Collecting blinker>=1.6.2", "  Using cached blinker-1.7.0-py3-none-any.whl (13 kB)",
     "Collecting Werkzeug>=3.0.0", "  Using cached werkzeug-3.0.2-py3-none-any.whl (226 kB)",
     "Collecting click>=8.1.3", "  Using cached click-8.1.7-py3-none-any.whl (97 kB)",
     "Collecting itsdangerous>=2.1.2",
     "  Using cached itsdangerous-2.2.0-py3-none-any.whl (16 kB)",
     "Requirement already satisfied: Jinja2>=3.1.2 in " ++
      "/home/openhands/.local/lib/python3.10/site-packages (from flask) (3.1.3)",
     "Requirement already satisfied: MarkupSafe>=2.0 in " ++
      "/home/openhands/.local/lib/python3.10/site-packages (from Jinja2>=3.1.2->flask) " ++
      "(2.1.5)",
     "Installing collected packages: Werkzeug, itsdangerous, click, blinker, flask",
     "Successfully installed Werkzeug-3.0.2 blinker-1.7.0 click-8.1.7 flask-3.0.3 " ++
      "itsdangerous-2.2.0",
     "", "ASSISTANT:",
     "The `flask` module is installed successfully. Let me run the Python file again:",
     "<function=execute_bash>", "<parameter=command>", "python3 app.py > server.log 2>&1 &",
     "</parameter>", "</function>", "", "USER: EXECUTION RESULT of [execute_bash]:", "[1] 124",
     "", "ASSISTANT:", "Let me check the server log again:", "<function=execute_bash>",
     "<parameter=command>", "cat server.log", "</parameter>", "</function>", "",
     "USER: EXECUTION RESULT of [execute_bash]:", "* Serving Flask app 'app'",
     " * Debug mode: off",
     "WARNING: This is a development server. Do not use it in a production deployment. Use" ++
      " a production WSGI server instead.",
     " * Running on http://127.0.0.1:5000", "Press CTRL+C to quit", "", "ASSISTANT:",
     "The server is running on port 5000 with PID 124. You can access the list of numbers " ++
      "by visiting http://127.0.0.1:5000. If you have any further questions, feel free to " ++
      "ask!"]

/-- The agent stops a server with the shell. -/
def executeBashKillServer : Text :=
  lines
    ["", "USER: Now kill the server, make it display the numbers in a table format.", "",
     "ASSISTANT:", "Sure! Let me stop the server first:", "<function=execute_bash>",
     "<parameter=command>", "kill 124", "</parameter>", "</function>", "",
     "USER: EXECUTION RESULT of [execute_bash]:",
     "[1]+  Terminated              python3 app.py > server.log 2>&1"]

/-- The agent starts a server again with the shell. -/
def executeBashRunServerAgain : Text :=
  lines
    ["", "ASSISTANT:", "Running the updated file:", "<function=execute_bash>",
     "<parameter=command>", "python3 app.py > server.log 2>&1 &", "</parameter>",
     "</function>", "", "USER: EXECUTION RESULT of [execute_bash]:", "[1] 126", "",
     "ASSISTANT:",
     "The server is running on port 5000 with PID 126. You can access the list of numbers " ++
      "in a table format by visiting http://127.0.0.1:5000."]

def strReplaceEditorCreateFile : Text :=
  lines
    ["", "ASSISTANT:",
     "There is no `app.py` file in the current directory. Let me create a Python file " ++
      "`app.py`:",
     "<function=str_replace_editor>", "<parameter=command>create</parameter>",
     "<parameter=path>/workspace/app.py</parameter>", "<parameter=file_text>",
     "from flask import Flask", "app = Flask(__name__)", "", "@app.route('/')", "def index():",
     "    numbers = list(range(1, 11))", "    return str(numbers)", "",
     "if __name__ == '__main__':", "    app.run(port=5000)", "</parameter>", "</function>", "",
     "USER: EXECUTION RESULT of [str_replace_editor]:",
     "File created successfully at: /workspace/app.py"]

/-- The agent changes a file with the editor. -/
def strReplaceEditorEditFile : Text :=
  lines
    ["", "ASSISTANT:", "Now let me display the numbers in a table format:",
     "<function=str_replace_editor>", "<parameter=command>str_replace</parameter>",
     "<parameter=path>/workspace/app.py</parameter>",
     "<parameter=old_str>return str(numbers)</parameter>",
     "<parameter=new_str>return '<table>' + ''.join([f'<tr><td>\x7bi\x7d</td></tr>' for i " ++
      "in numbers]) + '</table>'</parameter>",
     "</function>", "", "USER: EXECUTION RESULT of [str_replace_editor]:",
     "The file /workspace/app.py has been edited. Here's the result of running `cat -n` on" ++
      " a snippet of /workspace/app.py:",
     "     3", "     4  @app.route('/')", "     5  def index():",
     "     6      numbers = list(range(1, 11))",
     "     7      return '<table>' + ''.join([f'<tr><td>\x7bi\x7d</td></tr>' for i in " ++
      "numbers]) + '</table>'",
     "     8", "     9  if __name__ == '__main__':", "    10      app.run(port=5000)",
     "Review the changes and make sure they are as expected. Edit the file again if necessary.",
     ""]

/-- The agent looks at a page with the browser. -/
def browserViewPage : Text :=
  lines
    ["", "ASSISTANT:", "Let me check how the page looks in the browser:", "<function=browser>",
     "<parameter=code>", "goto('http://127.0.0.1:5000')",
     "noop(1000)  # Wait for page to load", "</parameter>", "</function>", "",
     "USER: EXECUTION RESULT of [browser]:", "[Browser shows the numbers in a table format]"]

/-- The agent creates a file with the model-based editor. -/
def editFileCreateFile : Text :=
  lines
    ["",
     "ASSISTANT: There is no `app.py` file in the current directory. Let me create a " ++
      "Python file `app.py`:",
     "<function=edit_file>", "<parameter=path>/workspace/app.py</parameter>",
     "<parameter=start>1</parameter>", "<parameter=end>-1</parameter>", "<parameter=content>",
     "from flask import Flask", "app = Flask(__name__)", "", "@app.route('/')", "def index():",
     "    numbers = list(range(1, 11))", "    return str(numbers)", "",
     "if __name__ == '__main__':", "    app.run(port=5000)", "</parameter>", "</function>", "",
     "USER: EXECUTION RESULT of [edit_file]:",
     "File created successfully at: /workspace/app.py"]

/-- The agent changes a file with the model-based editor. -/
def editFileEditFile : Text :=
  lines
    ["", "ASSISTANT:", "Now let me display the numbers in a table format:",
     "<function=edit_file>", "<parameter=path>/workspace/app.py</parameter>",
     "<parameter=start>6</parameter>", "<parameter=end>9</parameter>", "<parameter=content>",
     "    numbers = list(range(1, 11))",
     "    return '<table>' + ''.join([f'<tr><td>\x7bi\x7d</td></tr>' for i in numbers]) + " ++
      "'</table>'",
     "    # ... existing code ...", "if __name__ == '__main__':", "</parameter>",
     "</function>", "", "USER: EXECUTION RESULT of [edit_file]:",
     "The file /workspace/app.py has been edited. Here's the result of running `cat -n` on" ++
      " a snippet of /workspace/app.py:",
     "     3", "     4  @app.route('/')", "     5  def index():",
     "     6      numbers = list(range(1, 11))",
     "     7      return '<table>' + ''.join([f'<tr><td>\x7bi\x7d</td></tr>' for i in " ++
      "numbers]) + '</table>'",
     "     8", "     9  if __name__ == '__main__':", "    10      app.run(port=5000)",
     "Review the changes and make sure they are as expected. Edit the file again if necessary."]

def finishExample : Text :=
  lines
    ["", "ASSISTANT:",
     "The server is running on port 5000 with PID 126. You can access the list of numbers " ++
      "in a table format by visiting http://127.0.0.1:5000. Let me know if you have any " ++
      "further requests!",
     "<function=finish>",
     "<parameter=message>The task has been completed. The web server is running and " ++
      "displaying numbers 1-10 in a table format at http://127.0.0.1:5000.</parameter>",
     "</function>"]

def systemPromptSuffix (description : Text) : Text :=
  systemPromptSuffixStart ++ description ++ systemPromptSuffixEnd

def refinePrompt (environment : Environment) (prompt : Text) : Text :=
  if environment.windows then replaceFrom "bash".toList "powershell".toList 0 prompt
  else prompt

/-- Whether a function of this name is among the tools. -/
def isAvailable (tools : List Tool) (name : String) : Bool :=
  tools.any (fun tool => tool.type = functionType && tool.name = name.toList)

def exampleParts (tools : List Tool) : Text :=
  (if isAvailable tools "execute_bash" then executeBashCheckDir else []) ++
    (if isAvailable tools "str_replace_editor" then strReplaceEditorCreateFile
      else if isAvailable tools "edit_file" then editFileCreateFile else []) ++
    (if isAvailable tools "execute_bash" then executeBashRunServer else []) ++
    (if isAvailable tools "browser" then browserViewPage else []) ++
    (if isAvailable tools "execute_bash" then executeBashKillServer else []) ++
    (if isAvailable tools "str_replace_editor" then strReplaceEditorEditFile
      else if isAvailable tools "edit_file" then editFileEditFile else []) ++
    (if isAvailable tools "execute_bash" then executeBashRunServerAgain else []) ++
    (if isAvailable tools "finish" then finishExample else [])

/-- The example for the tools that are available; without any of them there is none. -/
def getExampleForTools (environment : Environment) (tools : List Tool) : Text :=
  if ["execute_bash", "str_replace_editor", "browser", "finish", "edit_file"].any
      (isAvailable tools) then
    refinePrompt environment (lstrip (exampleStart ++ exampleParts tools ++ exampleEnd))
  else []

end ForgePilot.FnCalls
