/-!
# Names of the platform

The classes and methods of the platform that the analysis treats specially. A class is named in
full, and a method by its subsignature, or by its simple name where every overload counts.
-/

namespace WidgetFlow.Platform

/-! ## Classes -/

namespace ClassName

def object : String := "java.lang.Object"

def string : String := "java.lang.String"

def charSequence : String := "java.lang.CharSequence"

def runnable : String := "java.lang.Runnable"

def view : String := "android.view.View"

def viewGroup : String := "android.view.ViewGroup"

def menu : String := "android.view.Menu"

def contextMenu : String := "android.view.ContextMenu"

def menuItem : String := "android.view.MenuItem"

def menuInflater : String := "android.view.MenuInflater"

def layoutInflater : String := "android.view.LayoutInflater"

def window : String := "android.view.Window"

def activity : String := "android.app.Activity"

def listActivity : String := "android.app.ListActivity"

def tabActivity : String := "android.app.TabActivity"

def preferenceActivity : String := "android.preference.PreferenceActivity"

def dialog : String := "android.app.Dialog"

def alertDialog : String := "android.app.AlertDialog"

def alertDialogBuilder : String := "android.app.AlertDialog$Builder"

def timePickerDialog : String := "android.app.TimePickerDialog"

def datePickerDialog : String := "android.app.DatePickerDialog"

def dialogInterface : String := "android.content.DialogInterface"

def frameLayout : String := "android.widget.FrameLayout"

def linearLayout : String := "android.widget.LinearLayout"

def button : String := "android.widget.Button"

def listView : String := "android.widget.ListView"

def gridView : String := "android.widget.GridView"

def adapterView : String := "android.widget.AdapterView"

def tabHost : String := "android.widget.TabHost"

def tabSpec : String := "android.widget.TabHost$TabSpec"

def tabWidget : String := "android.widget.TabWidget"

def tabContentFactory : String := "android.widget.TabHost$TabContentFactory"

def listAdapter : String := "android.widget.ListAdapter"

def baseAdapter : String := "android.widget.BaseAdapter"

def arrayAdapter : String := "android.widget.ArrayAdapter"

def onClickListener : String := "android.view.View$OnClickListener"

def onCreateContextMenuListener : String := "android.view.View$OnCreateContextMenuListener"

def onItemClickListener : String := "android.widget.AdapterView$OnItemClickListener"

def message : String := "android.os.Message"

end ClassName

/-! ## Methods -/

namespace Method

def onCreateOptionsMenu : String := "boolean onCreateOptionsMenu(android.view.Menu)"

def onPrepareOptionsMenu : String := "boolean onPrepareOptionsMenu(android.view.Menu)"

def onOptionsItemSelected : String := "boolean onOptionsItemSelected(android.view.MenuItem)"

def onMenuItemSelected : String := "boolean onMenuItemSelected(int,android.view.MenuItem)"

def onCreateContextMenu : String :=
  "void onCreateContextMenu(android.view.ContextMenu,android.view.View,android.view.ContextMenu$ContextMenuInfo)"

def onContextItemSelected : String := "boolean onContextItemSelected(android.view.MenuItem)"

def onCreateDialog : String := "android.app.Dialog onCreateDialog(int)"

def onCreateDialogBundle : String := "android.app.Dialog onCreateDialog(int,android.os.Bundle)"

def onPrepareDialog : String := "void onPrepareDialog(int,android.app.Dialog)"

def onPrepareDialogBundle : String :=
  "void onPrepareDialog(int,android.app.Dialog,android.os.Bundle)"

def viewOnCreateContextMenu : String := "void onCreateContextMenu(android.view.ContextMenu)"

def onFinishInflate : String := "void onFinishInflate()"

def onListItemClick : String :=
  "void onListItemClick(android.widget.ListView,android.view.View,int,long)"

def onItemClick : String :=
  "void onItemClick(android.widget.AdapterView,android.view.View,int,long)"

def getView : String := "android.view.View getView(int,android.view.View,android.view.ViewGroup)"

def run : String := "void run()"

def viewOnClick : String := "void onClick(android.view.View)"

def dialogOnClick : String := "void onClick(android.content.DialogInterface,int)"

def createTabContent : String := "android.view.View createTabContent(java.lang.String)"

/-- The methods that the platform calls on a dialog. -/
def dialogLifecycle : List String := [
  "void onCreate(android.os.Bundle)", "void onStart()", "void onStop()",
  "void onAttachedToWindow()", "void onDetachedFromWindow()", "void onBackPressed()"]

/-- The methods that the platform calls on an activity without a call in the program. -/
def activityCallbacks : List String := [
  "void onCreate(android.os.Bundle)", "void onStart()", "void onRestart()", "void onResume()",
  "void onPause()", "void onStop()", "void onDestroy()", "void onPostCreate(android.os.Bundle)",
  "void onSaveInstanceState(android.os.Bundle)", "void onRestoreInstanceState(android.os.Bundle)",
  "void onNewIntent(android.content.Intent)",
  "void onActivityResult(int,int,android.content.Intent)", onCreateOptionsMenu,
  onPrepareOptionsMenu, onOptionsItemSelected, onMenuItemSelected,
  "void onOptionsMenuClosed(android.view.Menu)", onCreateContextMenu, onContextItemSelected,
  "void onContextMenuClosed(android.view.Menu)", onCreateDialog, onCreateDialogBundle,
  onPrepareDialog, onPrepareDialogBundle, onListItemClick,
  "boolean onKeyDown(int,android.view.KeyEvent)", "boolean onKeyUp(int,android.view.KeyEvent)",
  "void onBackPressed()", "boolean onTouchEvent(android.view.MotionEvent)",
  "boolean onSearchRequested()"]

def inflate : String := "android.view.View inflate(int,android.view.ViewGroup)"

def inflateAttach : String := "android.view.View inflate(int,android.view.ViewGroup,boolean)"

def viewStaticInflate : String :=
  "android.view.View inflate(android.content.Context,int,android.view.ViewGroup)"

def setContentViewId : String := "void setContentView(int)"

def setContentView : String := "void setContentView(android.view.View)"

def setContentViewParams : String :=
  "void setContentView(android.view.View,android.view.ViewGroup$LayoutParams)"

def findViewById : String := "android.view.View findViewById(int)"

def menuFindItem : String := "android.view.MenuItem findItem(int)"

def menuGetItem : String := "android.view.MenuItem getItem(int)"

/-- Look-ups that give the receiver or a view below it. -/
def findDescendantsAndSelf : List String := [
  "android.view.View findFocus()", "android.view.View findViewWithTag(java.lang.Object)",
  "android.view.View focusSearch(int)", "android.view.View focusSearch(android.view.View,int)"]

/-- Look-ups that give a direct child of the receiver. -/
def findChildren : List String := [
  "android.view.View getChildAt(int)", "android.view.View getFocusedChild()",
  "android.view.View getCurrentView()", "android.view.View getSelectedView()", menuGetItem]

/-- The simple name of all methods that add a view to a group. -/
def addView : String := "addView"

def setId : String := "void setId(int)"

/-- The simple name of the method that registers for the creation of a context menu. -/
def setOnCreateContextMenuListener : String := "setOnCreateContextMenuListener"

/-- The simple name of constructors. -/
def init : String := "<init>"

def menuAdd : List String := [
  "android.view.MenuItem add(java.lang.CharSequence)", "android.view.MenuItem add(int)",
  "android.view.MenuItem add(int,int,int,int)",
  "android.view.MenuItem add(int,int,int,java.lang.CharSequence)"]

def menuInflate : String := "void inflate(int,android.view.Menu)"

def showContextMenu : String := "boolean showContextMenu()"

def openContextMenu : String := "void openContextMenu(android.view.View)"

def openOptionsMenu : String := "void openOptionsMenu()"

def getListView : String := "android.widget.ListView getListView()"

def setAdapter : String := "void setAdapter(android.widget.ListAdapter)"

def showDialog : String := "void showDialog(int)"

def showDialogBundle : String := "boolean showDialog(int,android.os.Bundle)"

def dismissDialog : String := "void dismissDialog(int)"

def removeDialog : String := "void removeDialog(int)"

def dialogOnCancel : String := "void onCancel(android.content.DialogInterface)"

def dialogOnDismiss : String := "void onDismiss(android.content.DialogInterface)"

def dialogOnKey : String :=
  "boolean onKey(android.content.DialogInterface,int,android.view.KeyEvent)"

def dialogOnShow : String := "void onShow(android.content.DialogInterface)"

def getTabHost : String := "android.widget.TabHost getTabHost()"

def addTab : String := "void addTab(android.widget.TabHost$TabSpec)"

def newTabSpec : String := "android.widget.TabHost$TabSpec newTabSpec(java.lang.String)"

/-- The ways to give a tab a text as its indicator. -/
def setIndicatorLabel : List String := [
  "android.widget.TabHost$TabSpec setIndicator(java.lang.CharSequence)",
  "android.widget.TabHost$TabSpec setIndicator(java.lang.CharSequence,android.graphics.drawable.Drawable)"]

def setIndicatorView : String := "android.widget.TabHost$TabSpec setIndicator(android.view.View)"

def setContentLayout : String := "android.widget.TabHost$TabSpec setContent(int)"

def setContentFactory : String :=
  "android.widget.TabHost$TabSpec setContent(android.widget.TabHost$TabContentFactory)"

def setContentIntent : String :=
  "android.widget.TabHost$TabSpec setContent(android.content.Intent)"

end Method

end WidgetFlow.Platform
